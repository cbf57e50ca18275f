/-
How deep the calls go that enter a node.

`Entry.target` and what it is made of end by the way they are written: only a target is asked
whether it is a history node, and the descent goes to larger numbers.  The rules of entry say
less.  By them every node is entered alike, be it a target, an initial child, a region or a
node that is remembered, and a history node stands for what it remembers wherever it is met.
`node?`, `below?` and `above?` are these rules, with a bound on how deep the calls are nested.
A record that leads back to its own history node is followed for ever
(`node?_eq_none_of_self`), so that something has to be known of the tree and of the records.

Initial children and regions are no history nodes and stand after their parents.  So two
calls lead from a node that may be active to one with a larger number, and the descent from it
ends before the numbers do (`ends_descent`).  What a history node remembers may be active as
well, wherever the record was made from, so that no call meets a second history node.  `Ends`
says of each call what it comes to and what it adds, and its lemmas follow the shape of the
rules: a node that is put in, a walk over some nodes, one call after another.
-/
import Statechart.Definition.Decode
import Statechart.Proofs.Entry.Target

namespace Statechart.Entry

open Statechart.Tree Outcome

/-! ### The rules -/

mutual

/-- Enters a node with all that comes with it, by calls that are nested at most `depth` deep;
nothing if that is not deep enough. -/
def node? (t : Tree) (history : HistoryStore) (config : NodeSet) :
    Nat → NodeSet → Nat → Option NodeSet
  | 0, _, _ => none
  | depth + 1, entry, node =>
    match t.kind node with
    | .history _ =>
      match t.parent node with
      | none => some entry
      | some parent =>
        match history.get? node with
        | some ⟨_, n :: rest⟩ => do
          let entry ← (n :: rest).foldlM (node? t history config depth) entry
          (n :: rest).foldlM (above? t history config depth parent) entry
        | _ => below? t history config depth entry parent
    | _ => below? t history config depth (entry.insert node) node

/-- Enters what a node enters below itself. -/
def below? (t : Tree) (history : HistoryStore) (config : NodeSet) :
    Nat → NodeSet → Nat → Option NodeSet
  | 0, _, _ => none
  | depth + 1, entry, node =>
    match t.kind node with
    | .compound =>
      match t.initialChild node with
      | some child => node? t history config depth entry child
      | none => some entry
    | .parallel =>
      (t.regions node).foldlM (fun entry region =>
        if covered t region entry then some entry
        else node? t history config depth entry region) entry
    | _ => some entry

/-- Enters the nodes above a node and below `domain`, with the regions beside them. -/
def above? (t : Tree) (history : HistoryStore) (config : NodeSet) :
    Nat → Nat → NodeSet → Nat → Option NodeSet
  | 0, _, _, _ => none
  | depth + 1, domain, entry, node =>
    ((t.ancestors node).takeWhile fun a => a != domain).foldlM (fun entry a =>
      let entry := entry.insert a
      if t.kind a = .parallel then
        (t.regions a).foldlM (fun entry region =>
          if covered t region entry || covered t region config then some entry
          else node? t history config depth entry region) entry
      else some entry) entry

end

variable {t : Tree} {history : HistoryStore} {config entry : NodeSet} {depth n : Nat}

/-- **A record that leads back to its own history node is followed for ever**, however deep the
calls may be nested. -/
theorem node?_eq_none_of_self {kind : HistoryKind} {parent : Nat} {record : HistoryRecord}
    {rest : List Nat} (hkind : t.kind n = .history kind) (hparent : t.parent n = some parent)
    (hrecord : history.get? n = some record) (hnodes : record.nodes = n :: rest) :
    ∀ entry, node? t history config depth entry n = none := by
  obtain ⟨_, nodes⟩ := record
  subst hnodes
  induction depth with
  | zero => intro entry; rw [node?]
  | succ depth ih =>
      intro entry
      rw [node?]
      simp only [hkind, hparent, hrecord, List.foldlM_cons, ih]
      rfl

/-! ### What a call comes to -/

/-- A call ends with `result`, and of what it adds every node is one of the tree that may be
active. -/
structure Ends (t : Tree) (entry : NodeSet) (call : Option NodeSet) (result : NodeSet) : Prop where
  ends : call = some result
  adds : ∀ i ∈ result, i ∉ entry → i < t.size ∧ t.isHistory i = false

namespace Ends

variable {result result' : NodeSet} {call : Option NodeSet}

/-- A call that adds nothing. -/
theorem same : Ends t entry (some entry) entry :=
  ⟨rfl, fun _ hi hnot => absurd hi hnot⟩

/-- One call after another. -/
theorem bind {next : NodeSet → Option NodeSet} (h : Ends t entry call result)
    (hnext : Ends t result (next result) result') : Ends t entry (call >>= next) result' := by
  refine ⟨by simp [h.ends, hnext.ends], fun i hi hnot => ?_⟩
  by_cases hresult : i ∈ result
  · exact h.adds i hresult hnot
  · exact hnext.adds i hi hresult

/-- A node that may be active is put in first. -/
theorem insert (hn : n < t.size) (hactive : t.isHistory n = false)
    (h : Ends t (entry.insert n) call result) : Ends t entry call result := by
  refine ⟨h.ends, fun i hi hnot => ?_⟩
  by_cases hin : i = n
  · rw [hin]
    exact ⟨hn, hactive⟩
  · exact h.adds i hi (by simp [hin, hnot])

/-- A call that is made only where something is missing. -/
theorem skip {covers : Bool} (h : Ends t entry call result) :
    Ends t entry (if covers then some entry else call) (if covers then entry else result) := by
  cases covers with
  | true => exact same
  | false => exact h

/-- Calls for some nodes, one after the other. -/
theorem foldlM {call : NodeSet → Nat → Option NodeSet} {result : NodeSet → Nat → NodeSet}
    {l : List Nat} (h : ∀ a ∈ l, ∀ entry, Ends t entry (call entry a) (result entry a)) :
    ∀ entry, Ends t entry (l.foldlM call entry) (l.foldl result entry) := by
  induction l with
  | nil => intro entry; exact same
  | cons a rest ih =>
      intro entry
      rw [List.foldlM_cons, List.foldl_cons]
      have hrest := ih fun b hb => h b (List.mem_cons_of_mem _ hb)
      exact (h a (List.mem_cons_self ..) entry).bind (hrest _)

end Ends

/-! ### The descent -/

theorem node?_of_active (h : t.isHistory n = false) :
    node? t history config (depth + 1) entry n =
      below? t history config depth (entry.insert n) n := by
  rw [node?]
  unfold isHistory at h
  cases hkind : t.kind n with
  | history kind => simp [hkind, NodeKind.isHistory] at h
  | atomic | compound | parallel | final => simp

theorem below?_compound {c : Nat} (h : t.kind n = .compound) (hc : t.initialChild n = some c) :
    below? t history config (depth + 1) entry n = node? t history config depth entry c := by
  rw [below?]
  simp only [h, hc]

theorem below?_parallel (h : t.kind n = .parallel) :
    below? t history config (depth + 1) entry n =
      (t.regions n).foldlM (fun entry region =>
        if covered t region entry then some entry
        else node? t history config depth entry region) entry := by
  rw [below?]
  simp only [h]

theorem below?_end (h : t.kind n ≠ .compound) (h' : t.kind n ≠ .parallel) :
    below? t history config (depth + 1) entry n = some entry := by
  rw [below?]
  split
  · rename_i hk; exact absurd hk h
  · rename_i hk; exact absurd hk h'
  · rfl

/-- **The descent from a node that may be active ends**, when calls may be nested twice as deep
as there are numbers left. -/
theorem ends_descent (w : t.WellFormed) : ∀ (depth : Nat) {n : Nat}, n < t.size →
    (t.isHistory n = false → 2 * (t.size - n) ≤ depth → ∀ entry,
      Ends t entry (node? t history config depth entry n) (withDefaults t entry n)) ∧
    (2 * (t.size - n) ≤ depth + 1 → ∀ entry,
      Ends t entry (below? t history config depth entry n) (defaults t n entry)) := by
  intro depth
  induction depth with
  | zero => intro n hn; exact ⟨fun _ _ => by omega, fun _ => by omega⟩
  | succ depth ih =>
      intro n hn
      refine ⟨fun hactive hdepth entry => ?_, fun hdepth entry => ?_⟩
      · rw [node?_of_active hactive, withDefaults]
        exact .insert hn hactive ((ih hn).2 (by omega) _)
      have hregion : ∀ r ∈ t.regions n, ∀ entry,
          Ends t entry (node? t history config depth entry r) (withDefaults t entry r) := by
        intro r hr
        obtain ⟨hchild, hactive⟩ := children_of_mem_regions hr
        have hlt := lt_of_child hchild
        exact (ih hlt.2).1 hactive (by omega)
      by_cases hcompound : t.kind n = .compound
      · obtain ⟨c, hc, hinitial⟩ := w.initial hcompound
        rw [below?_compound hcompound hinitial, defaults_compound hcompound hinitial]
        exact hregion c hc entry
      by_cases hparallel : t.kind n = .parallel
      · rw [below?_parallel hparallel, defaults_parallel hparallel]
        refine Ends.foldlM (fun r hr entry => ?_) entry
        rw [fillRegion, covered_eq_false_iff.mpr bare_empty, Bool.or_false]
        exact (hregion r hr entry).skip
      · rw [below?_end hcompound hparallel, defaults_end hcompound hparallel]
        exact .same

/-! ### The way up -/

/-- What stands above a node is in the tree and may be active. -/
theorem active_of_mem_ancestors (w : t.WellFormed) (hn : n < t.size) {a : Nat}
    (ha : a ∈ t.ancestors n) : a < t.size ∧ t.isHistory a = false :=
  ⟨Nat.lt_trans (Below.lt ha) hn, w.isHistory_of_below ha⟩

/-- The way up from a node ends: one call, and the descents from the regions beside it. -/
theorem ends_above (w : t.WellFormed) (hn : n < t.size) (hdepth : 2 * t.size ≤ depth + 1)
    (domain : Nat) : ∀ entry, Ends t entry (above? t history config depth domain entry n)
      (ancestors t config domain entry n) := by
  intro entry
  cases depth with
  | zero => omega
  | succ depth =>
  rw [above?, ancestors]
  refine Ends.foldlM (fun a ha entry => ?_) entry
  obtain ⟨halt, hactive⟩ := active_of_mem_ancestors w hn (List.takeWhile_subset _ ha)
  refine .insert halt hactive ?_
  rw [ancestor]
  by_cases hparallel : t.kind a = .parallel
  · simp only [if_pos hparallel]
    refine Ends.foldlM (fun r hr entry => ?_) _
    obtain ⟨hchild, hregion⟩ := children_of_mem_regions hr
    have hlt := lt_of_child hchild
    exact ((ends_descent w depth hlt.2).1 hregion (by omega) entry).skip
  · simp only [if_neg hparallel]
    exact .same

/-! ### History nodes -/

/-- What a history node remembers is in the tree below the parent and may be active, wherever
the record was made from. -/
theorem active_of_record (w : t.WellFormed) {Q : NodeSet → Prop} (hmade : MadeFrom t Q history)
    {parent : Nat} {record : HistoryRecord} (hparent : t.parent n = some parent)
    (hrecord : history.get? n = some record) :
    ∀ m ∈ record.nodes, t.Below m parent ∧ m < t.size ∧ t.isHistory m = false := by
  intro m hm
  have hbelow := below_of_record w hmade parent record hparent hrecord m hm
  obtain ⟨owner, C, hremembers⟩ := hmade.remembers hrecord
  rw [hremembers.nodes] at hm
  have hscattered := scattered_remembered w (D := owner) within_self (List.ne_nil_of_mem hm)
  exact ⟨hbelow, hscattered.inTree m hm, hscattered.active m hm⟩

/-- **A history node is entered and the calls end**: what it remembers, or what its parent enters
by itself. -/
theorem ends_history (w : t.WellFormed) {Q : NodeSet → Prop} (hmade : MadeFrom t Q history)
    (hn : n < t.size) (hhistory : t.isHistory n = true) (hdepth : 2 * t.size ≤ depth) :
    ∀ entry, Ends t entry (node? t history config depth entry n)
      (target t history config entry n) := by
  intro entry
  obtain ⟨kind, hkind⟩ : ∃ kind, t.kind n = .history kind := by
    unfold isHistory at hhistory
    cases hkind : t.kind n with
    | history kind => exact ⟨kind, rfl⟩
    | atomic | compound | parallel | final => simp [hkind, NodeKind.isHistory] at hhistory
  cases depth with
  | zero => omega
  | succ depth =>
  rw [node?, target, hhistory, if_pos rfl]
  simp only [hkind]
  cases hparent : t.parent n with
  | none => exact .same
  | some parent =>
  have hlt := lt_of_parent hparent
  have hparentBelow : Ends t entry (below? t history config depth entry parent)
      (defaults t parent entry) :=
    (ends_descent w depth (Nat.lt_trans hlt hn)).2 (by omega) entry
  cases hrecord : history.get? n with
  | none => exact hparentBelow
  | some record =>
  obtain ⟨_, nodes⟩ := record
  cases nodes with
  | nil => exact hparentBelow
  | cons m rest =>
  have hactive := active_of_record w hmade hparent hrecord
  refine Ends.bind (Ends.foldlM (fun a ha entry => ?_) entry) (Ends.foldlM (fun a ha entry => ?_) _)
  · obtain ⟨hbelow, ha, hactive⟩ := hactive a ha
    have := hbelow.lt
    exact (ends_descent w depth ha).1 hactive (by omega) entry
  · exact ends_above w (hactive a ha).2.1 (by omega) parent entry

/-- **Entering ends.**  In a tree that loads, with records that were made one after the other
from any sets of its nodes, the calls for any node end whatever has been entered and is active.
They are nested at most twice as deep as there are nodes, come to what `target`, `defaults` and
`ancestors` say, and add only nodes of the tree that are no history nodes. -/
theorem ends_of_build {name : String} {c : StateConfig} (h : build name c = .ok t)
    (hmade : MadeFrom t (fun C => ∀ i ∈ C, i < t.size) history) (hn : n < t.size)
    (hdepth : 2 * t.size ≤ depth) (domain : Nat) (config entry : NodeSet) :
    Ends t entry (node? t history config depth entry n) (target t history config entry n) ∧
      Ends t entry (below? t history config depth entry n) (defaults t n entry) ∧
      Ends t entry (above? t history config depth domain entry n)
        (ancestors t config domain entry n) := by
  have w := wellFormed_of_build h
  refine ⟨?_, (ends_descent w depth hn).2 (by omega) entry,
    ends_above w hn (by omega) domain entry⟩
  by_cases hhistory : t.isHistory n = true
  · exact ends_history w hmade hn hhistory hdepth entry
  · rw [Bool.not_eq_true] at hhistory
    rw [target, hhistory, if_neg Bool.false_ne_true]
    exact (ends_descent w depth hn).1 hhistory (by omega) entry

/-- A player that is off, or on with its sound and its light, and goes back to what it was. -/
def playerChart : StateConfig :=
  let pair (first second : String) : StateConfig :=
    { StateConfig.blank with
      initial := some first
      states := [(first, StateConfig.blank), (second, StateConfig.blank)] }
  { StateConfig.blank with
    initial := some "off"
    states := [
      ("off", StateConfig.blank),
      ("on", { StateConfig.blank with
        type := some .parallel
        states := [("sound", pair "low" "high"), ("light", pair "dim" "bright")] }),
      ("back", { StateConfig.blank with history := some (.mode .deep) })] }

/-- The player remembers of a single node, the high sound, and is entered from there: the calls
go up to the regions at once and down again into the light. -/
theorem ends_of_build_playerChart : ∃ (t : Tree) (history : HistoryStore),
    build "m" playerChart = .ok t ∧ MadeFrom t (fun C => ∀ i ∈ C, i < t.size) history ∧
      t.isHistory 9 = true ∧ (t.node 5).id = "m.on.sound.high" ∧
      Ends t SortedSet.empty (node? t history SortedSet.empty 20 SortedSet.empty 9)
        (.ofList [2, 3, 5, 6, 7]) := by
  obtain ⟨t, ht, h⟩ := exists_of_run (x := build "m" playerChart)
    (p := fun t => decide (t.size = 10 ∧ t.isHistory 9 = true ∧
      (t.node 5).id = "m.on.sound.high" ∧
      target t (HistoryStore.record t SortedMap.empty root (.ofList [5])) SortedSet.empty
        SortedSet.empty 9 = .ofList [2, 3, 5, 6, 7])) (by decide +kernel)
  obtain ⟨hsize, hhistory, hid, htarget⟩ := of_decide_eq_true h
  have hmade : MadeFrom t (fun C => ∀ i ∈ C, i < t.size)
      (HistoryStore.record t SortedMap.empty root (.ofList [5])) := by
    refine .record root .empty fun i hi => ?_
    simp only [SortedSet.mem_ofList, List.mem_singleton] at hi
    omega
  refine ⟨t, _, ht, hmade, hhistory, hid, ?_⟩
  rw [← htarget]
  exact (ends_of_build ht hmade (by omega) (by omega) root SortedSet.empty SortedSet.empty).1

end Statechart.Entry
