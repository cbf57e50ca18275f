/-
Which events are handled.

An event is handled when it takes a transition, and it takes one as soon as any active node
has a candidate for it that is enabled.  Two things could come in between.  The candidate may
stand where no leaf below asks; but where every active parallel node has a region there is an
active leaf at or below every active node, and its walk up ends at the candidate at the
latest.  And what the walk finds may lose to another proposal; but then that other one is
kept in the end (`Settles.beaten`), so that dropping never leaves nothing.
-/
import Statechart.Proofs.Entry.Restored
import Statechart.Proofs.Run.States
import Statechart.Proofs.Step.Conflicts

namespace Statechart

open Statechart.Tree Outcome

namespace Selection

variable {t : Tree} {scope : GuardScope} {name : String} {config : NodeSet} {c : Candidate}

/-- Enabled means that the guard is absent or true. -/
theorem enabled_iff : enabled scope c = .ok true ↔ c.guard = none ∨
    ∃ g, c.guard = some g ∧ scope.table.evaluate g scope.context scope.event = .ok true := by
  unfold enabled GuardTable.allows
  cases c.guard with
  | none => simp
  | some g =>
      simp only [reduceCtorEq, Option.some.injEq, exists_eq_left', false_or]
      cases scope.table.evaluate g scope.context scope.event with
      | ok b => simp
      | error f => simp

/-- A search that finds nothing has asked every candidate. -/
theorem disabled_of_firstEnabled {l : List Candidate} (h : firstEnabled scope l = .ok none) :
    ∀ c ∈ l, enabled scope c = .ok false := by
  induction l with
  | nil => exact nofun
  | cons a rest ih =>
      rw [firstEnabled] at h
      obtain ⟨b, ha, h⟩ := bind_eq_ok.mp h
      cases b with
      | true => cases h
      | false => exact List.forall_mem_cons.mpr ⟨ha, ih h⟩

/-- Every active leaf has been asked. -/
theorem exists_answer {proposed : List Candidate} (h : proposals t scope name config = .ok proposed)
    {leaf : Nat} (hleaf : leaf ∈ config) (hisLeaf : t.isLeaf leaf = true) :
    ∃ found, firstEnabled scope (candidatesFrom t name leaf) = .ok found := by
  have hmem : leaf ∈ config.toList.filter t.isLeaf :=
    List.mem_filter.mpr ⟨SortedSet.mem_toList.mpr hleaf, hisLeaf⟩
  obtain ⟨_, _, hstep⟩ := exists_of_foldlM hmem h
  obtain ⟨found, hfound, _⟩ := bind_eq_ok.mp hstep
  exact ⟨found, hfound⟩

/-- How what is selected comes about: from the picks of the leaves, of which some are kept. -/
theorem settles_of_select {root : String} {chart : StateConfig} (h : build root chart = .ok t)
    (hC : Coherent t config) {selected : List Candidate}
    (hselect : select t scope name config = .ok selected) :
    ∃ picks kept, proposals t scope name config = .ok (picks.map Prod.snd) ∧
      Traced t scope name config picks ∧ Settles t config name (picks.map Prod.snd) kept ∧
      selected = kept.map Prod.fst ∧
      ∀ leaf ∈ config, t.isLeaf leaf = true → ∀ c, Picks t scope name leaf c →
        c ∈ picks.map Prod.snd := by
  have w : t.Lettered := lettered_of_build h
  obtain ⟨proposed, hproposed, hselect⟩ := bind_eq_ok.mp hselect
  obtain ⟨picks, htraced, rfl, hall⟩ := exists_traced w hproposed
  obtain ⟨kept, hkept, hselect⟩ := bind_eq_ok.mp hselect
  cases hselect
  have hnone : Settles t config name [] [] :=
    ⟨⟨nofun, nofun, .nil⟩, nofun, List.nil_sublist _, nofun⟩
  have hsettles := hnone.keepAll w.toWellFormed hC (proposals_proposed hproposed)
    (htraced.ordered h hC.inTree) hkept
  exact ⟨picks, kept, hproposed, htraced, hsettles, rfl, hall⟩

/-- Every candidate that is selected is enabled, at an active node. -/
theorem enabled_of_select {root : String} {chart : StateConfig} (h : build root chart = .ok t)
    (hC : Coherent t config) {selected : List Candidate}
    (hselect : select t scope name config = .ok selected) (hc : c ∈ selected) :
    c.source ∈ config ∧ c ∈ (t.node c.source).candidates name ∧ enabled scope c = .ok true := by
  obtain ⟨picks, kept, _, htraced, hsettles, rfl, _⟩ := settles_of_select h hC hselect
  obtain ⟨p, hp, rfl⟩ := List.mem_map.mp (hsettles.sublist.subset hc)
  have hpicks := htraced.picked p hp
  obtain ⟨n, hn, hmem⟩ := mem_candidatesFrom.mp hpicks.comes.mem
  rw [(wellFormed_of_build h).source hmem]
  exact ⟨hC.mem_of_within (htraced.active p hp).1 hn, hmem, hpicks.enabled⟩

/-- **A selection is empty only where nothing is enabled**, if the active parallel nodes have
regions. -/
theorem select_ne_nil {root : String} {chart : StateConfig} (h : build root chart = .ok t)
    (hC : Legal t config) (hfull : Entry.Full t config) {selected : List Candidate}
    (hselect : select t scope name config = .ok selected) {i : Nat} (hi : i ∈ config)
    (hc : c ∈ (t.node i).candidates name) (henabled : enabled scope c = .ok true) :
    selected ≠ [] := by
  obtain ⟨picks, kept, hproposed, _, hsettles, rfl, hall⟩ :=
    settles_of_select h hC.toCoherent hselect
  obtain ⟨leaf, hleaf, hisLeaf, hw⟩ := Entry.exists_leaf (wellFormed_of_build h) hC hfull hi
  obtain ⟨found, hfound⟩ := exists_answer hproposed hleaf hisLeaf
  have hwalk : c ∈ candidatesFrom t name leaf := mem_candidatesFrom.mpr ⟨i, hw, hc⟩
  cases found with
  | none =>
      rw [disabled_of_firstEnabled hfound c hwalk] at henabled
      cases henabled
  | some d =>
      rcases hsettles.beaten d (hall leaf hleaf hisLeaf d (picks_iff.mpr hfound)) with hd | ⟨k, hk, _⟩
      · exact List.ne_nil_of_mem hd
      · exact List.ne_nil_of_mem hk

end Selection

namespace Machine

variable {m : Machine} {s s' : State} {e : Event} {config : NodeSet}

/-- What a transition is worth: it leaves the state if nothing is selected, and otherwise
changes it. -/
theorem selects_of_transition (hrunning : s.done = false)
    (hreads : m.configuration s.value = .ok config) (h : m.transition s e = .ok s') :
    ∃ selected, (m.surroundings s.context e).select config e e.name = .ok selected ∧
      (selected = [] ∧ s' = s.unchanged e ∨ selected ≠ [] ∧ s'.changed = true) := by
  rw [transition, hrunning] at h
  obtain ⟨config', hreads', h⟩ := bind_eq_ok.mp h
  rw [hreads] at hreads'
  cases hreads'
  obtain ⟨selected, hselect, h⟩ := bind_eq_ok.mp h
  refine ⟨selected, hselect, ?_⟩
  split at h
  · rename_i hempty
    cases h
    exact Or.inl ⟨List.isEmpty_iff.mp hempty, rfl⟩
  · rename_i hsome
    obtain ⟨step, _, h⟩ := bind_eq_ok.mp h
    obtain ⟨rest, _, h⟩ := bind_eq_ok.mp h
    obtain ⟨value, _, h⟩ := bind_eq_ok.mp h
    cases h
    exact Or.inr ⟨fun hnil => hsome (List.isEmpty_iff.mpr hnil), rfl⟩

/-- A value that is read is read as a legal configuration. -/
theorem legal_of_reads {c : StateConfig} {source : Json}
    (hload : Definition.ofConfig c source = .ok m.definition)
    (hreads : m.configuration s.value = .ok config) : Legal m.tree config := by
  have hbuild := Definition.build_of_ofConfig hload
  exact (StateValue.describes_of_toConfiguration (wellFormed_of_build hbuild)
    (plainNames_of_build hbuild) (sound_eq_ok.mp hreads)).legal

/-- **An event is handled exactly when something enables it.**  In a running machine whose
active parallel nodes have regions, an event that can be taken changes the state if and only if
some active node has a candidate for it whose guard is absent or true.  Otherwise it leaves the
state as it is, without actions and without commands to the timers. -/
theorem changed_iff_enabled {c : StateConfig} {source : Json}
    (hload : Definition.ofConfig c source = .ok m.definition) (hrunning : s.done = false)
    (hreads : m.configuration s.value = .ok config) (hfull : Entry.Full m.tree config)
    (h : m.transition s e = .ok s') :
    (s'.changed = true ↔ ∃ i ∈ config, ∃ a ∈ (m.tree.node i).candidates e.name,
      a.guard = none ∨ ∃ g, a.guard = some g ∧ m.table.evaluate g s.context e = .ok true) ∧
    (s'.changed = false → s'.value = s.value ∧ s'.context = s.context ∧ s'.history = s.history ∧
      s'.done = s.done ∧ s'.actions = [] ∧ s'.timers = []) := by
  have hbuild := Definition.build_of_ofConfig hload
  have hC : Legal m.tree config := legal_of_reads hload hreads
  obtain ⟨selected, hselect, hcases⟩ := selects_of_transition hrunning hreads h
  have hsome : selected ≠ [] ↔ ∃ i ∈ config, ∃ a ∈ (m.tree.node i).candidates e.name,
      a.guard = none ∨ ∃ g, a.guard = some g ∧ m.table.evaluate g s.context e = .ok true := by
    constructor
    · intro hne
      obtain ⟨a, ha⟩ := List.exists_mem_of_ne_nil selected hne
      obtain ⟨hi, hmem, henabled⟩ :=
        Selection.enabled_of_select hbuild hC.toCoherent hselect ha
      exact ⟨a.source, hi, a, hmem, Selection.enabled_iff.mp henabled⟩
    · rintro ⟨i, hi, a, ha, hguard⟩
      exact Selection.select_ne_nil hbuild hC hfull hselect hi ha (Selection.enabled_iff.mpr hguard)
  rw [← hsome]
  rcases hcases with ⟨hnil, rfl⟩ | ⟨hne, hchanged⟩
  · refine ⟨⟨fun hchanged => ?_, fun hne => absurd hnil hne⟩, fun _ => ⟨rfl, rfl, rfl, rfl, rfl, rfl⟩⟩
    cases hchanged
  · refine ⟨⟨fun _ => hne, fun _ => hchanged⟩, fun hfalse => ?_⟩
    rw [hchanged] at hfalse
    cases hfalse

/-- A gate beside a lamp, which opens for a coin once it is paid and else for a push. -/
def gateChart : StateConfig :=
  let opens (guard) : TransitionConfig :=
    [{ CandidateConfig.idle with target := some "open", guard := some (.source guard) }]
  { StateConfig.blank with
    type := some .parallel
    context := some (.object [("paid", .bool true)])
    states := [
      ("gate", { StateConfig.blank with
        initial := some "closed"
        states := [
          ("closed", { StateConfig.blank with
            on := [("COIN", opens "ctx.paid"), ("PUSH", opens "!ctx.paid")] }),
          ("open", StateConfig.blank)] }),
      ("lamp", StateConfig.blank)] }

/-- The coin is handled, since its guard is true; the push is not, and no active node has
anything enabled for it. -/
theorem changed_iff_enabled_gateChart : ∃ (m : Machine) (s : State) (config : NodeSet)
    (opened left : State),
    Definition.ofConfig gateChart .null = .ok m.definition ∧ m.configuration s.value = .ok config ∧
    m.transition s (Event.named "COIN") = .ok opened ∧ opened.changed = true ∧
    (∃ i ∈ config, ∃ a ∈ (m.tree.node i).candidates "COIN",
      a.guard = none ∨ ∃ g, a.guard = some g ∧
        m.table.evaluate g s.context (Event.named "COIN") = .ok true) ∧
    m.transition s (Event.named "PUSH") = .ok left ∧ left.value = s.value ∧
    ¬ ∃ i ∈ config, ∃ a ∈ (m.tree.node i).candidates "PUSH",
      a.guard = none ∨ ∃ g, a.guard = some g ∧
        m.table.evaluate g s.context (Event.named "PUSH") = .ok true := by
  obtain ⟨definition, hload, h⟩ := exists_of_run (x := Definition.ofConfig gateChart .null)
    (p := fun d => (ofDefinition d).initialState.toOption.any fun s =>
      !s.done && ((ofDefinition d).configuration s.value).toOption.any (fun config =>
        decide (Entry.Full d.tree config)) &&
      ((ofDefinition d).transition s (Event.named "COIN")).toOption.any (fun opened =>
        opened.changed) &&
      ((ofDefinition d).transition s (Event.named "PUSH")).toOption.any fun left =>
        !left.changed) (by decide +kernel)
  obtain ⟨s, -, h⟩ := exists_of_run h
  simp only [Bool.and_eq_true, Bool.not_eq_true'] at h
  obtain ⟨⟨⟨hrunning, hreads⟩, hcoin⟩, hpush⟩ := h
  obtain ⟨config, hreads, hfull⟩ := exists_of_run hreads
  obtain ⟨opened, hopened, hchanged⟩ := exists_of_run hcoin
  obtain ⟨left, hleft, hsame⟩ := exists_of_run hpush
  have hfull := of_decide_eq_true hfull
  have hsame : left.changed = false := by simpa using hsame
  have hopen := changed_iff_enabled (m := ofDefinition definition) hload hrunning hreads hfull hopened
  have hleave := changed_iff_enabled (m := ofDefinition definition) hload hrunning hreads hfull hleft
  refine ⟨ofDefinition definition, s, config, opened, left, hload, hreads, hopened, hchanged,
    hopen.1.mp hchanged, hleft, (hleave.2 hsame).1, fun henabled => ?_⟩
  rw [hleave.1.mpr henabled] at hsame
  cases hsame

end Machine

end Statechart
