/-
Which edges a preview highlights.

A preview is given the event and what would be active after it.  It knows nothing of the
candidates that are taken, and highlights every edge for the event that leads from what is
active into what would be.  When an event takes one step these agree for every target that
may be active: the source of a candidate that is taken is active, and its target is after
the step, so both are reached from the leaves that the state values list (`reaches_shown`).
A history node is never active.  It only stands for what it remembers, and so the edge to it
is never highlighted, although it is taken (`highlight_iff_of_takesOnce`).
-/
import Statechart.Proofs.Run.Course
import Statechart.Proofs.Run.Limit
import Statechart.Proofs.View.Marking
import Statechart.Proofs.View.Nesting

namespace Statechart

open Statechart.Tree Outcome Step

namespace Machine

variable {m : Machine} {s s' : State} {e : Event} {selected : List Candidate} {c : Candidate}

/-- An event takes some candidates in one step, and no step follows it. -/
structure TakesOnce (m : Machine) (s : State) (e : Event) (selected : List Candidate)
    (s' : State) : Prop where
  running : s.done = false
  selects : ∃ config, m.configuration s.value = .ok config ∧
    (m.surroundings s.context e).select config e e.name = .ok selected
  some : selected ≠ []
  alone : m.stepCount s e = 0
  answers : m.transition s e = .ok s'

/-- No step follows where the machine answers although none may follow. -/
theorem stepCount_eq_zero (h : (m.withLimit 0).transition s e = .ok s') :
    m.stepCount s e = 0 := by
  by_contra hne
  have hlt : ((0 : Nat) : ℕ∞) < m.stepCount s e := by simpa [pos_iff_ne_zero] using hne
  have hcut := ((cutOff_transition m s e).givenUp 0 e.name 0).mpr ⟨hlt, rfl, rfl⟩
  rw [h] at hcut
  cases hcut

/-- A step that nothing follows leaves its configuration. -/
theorem config_of_stepCount {e : Surroundings} {step rest : Step} {limit : Nat}
    (hzero : e.stepCount step = 0) (h : e.settle limit limit step = .ok rest) :
    rest.config = step.config := by
  have hnone : ¬ e.Begins (0 + 1) step := by
    rw [← Surroundings.lt_stepCount_iff, hzero]
    exact lt_irrefl _
  have hsame : e.settle limit 0 step = e.settle limit limit step :=
    Surroundings.settle_congr hnone (Nat.zero_le limit)
  rw [h] at hsame
  rcases Surroundings.settle_cases hsame with ⟨_, rfl⟩ | ⟨_, _, _, _, ⟨_, rfl⟩ | ⟨_, _, hbudget, _⟩⟩
  · rfl
  · rfl
  · cases hbudget

namespace TakesOnce

/-- What an event leads to in one step is written of the configuration after that. -/
theorem exists_step (h : m.TakesOnce s e selected s') : ∃ config step,
    m.configuration s.value = .ok config ∧
      (m.surroundings s.context e).select config e e.name = .ok selected ∧
      (Step.start config s.history).microstep m.tree selected = .ok step ∧
      StateValue.ofConfiguration m.tree step.config = .ok s'.value := by
  obtain ⟨hrunning, ⟨config, hreads, hselects⟩, hsome, halone, hanswers⟩ := h
  rw [transition_eq_ownStep] at hanswers
  obtain ⟨own, hown, hanswers⟩ := bind_eq_ok.mp hanswers
  have hstep := hown
  unfold ownStep at hstep
  rw [if_neg (by simp [hrunning]), hreads] at hstep
  obtain ⟨_, hconfig, hstep⟩ := bind_eq_ok.mp hstep
  cases hconfig
  obtain ⟨_, hselected, hstep⟩ := bind_eq_ok.mp hstep
  rw [hselects] at hselected
  cases hselected
  rw [if_neg (by simpa using hsome)] at hstep
  obtain ⟨step, hmicro, hstep⟩ := bind_eq_ok.mp hstep
  cases hstep
  obtain ⟨rest, hrest, hfinish⟩ := bind_eq_ok.mp hanswers
  have hzero : (m.surroundings s.context e).stepCount step = 0 := by
    rw [stepCount, hown] at halone
    exact halone
  refine ⟨config, step, hreads, hselects, hmicro, ?_⟩
  rw [← config_of_stepCount hzero hrest]
  exact (finish_eq_ok hfinish).1

end TakesOnce

/-- **A target that may be active is active after the step that takes it.** -/
theorem mem_config_of_target {t : Tree} (w : t.WellFormed) {first step : Step} {name : String}
    (hfirst : Orderly t first) (hselected : Selection.Selected t first.config name selected)
    (hstep : first.microstep t selected = .ok step) (hc : c ∈ selected) {label : String} {x : Nat}
    (htarget : c.target = some label) (hx : t.resolveTarget c.source label = some x)
    (hactive : t.isHistory x = false) : x ∈ step.config := by
  obtain ⟨targets, htargets, _⟩ := bind_eq_ok.mp hstep
  have hmoves : MovesOf t selected (targets.filterMap fun move => move) := ⟨targets, htargets, rfl⟩
  obtain ⟨step', hstep', hmakes⟩ := microstep_of_moves (s := first) hmoves
  rw [hstep] at hstep'
  cases hstep'
  have hmove : (x, t.domain c x) ∈ targets.filterMap fun move => move :=
    hmoves.mem_iff.mpr ⟨c, hc, ⟨label, htarget, by rw [targetOf, hx]⟩, rfl⟩
  rw [hmakes.config]
  have hfit := hmoves.fit w hfirst.config hselected
  refine (mem_after w hfirst.history hfit).mpr (Or.inr ⟨_, hmove, Or.inl ⟨x, ?_, .refl⟩⟩)
  simp [Entry.seeds, hactive]

end Machine

namespace View

open Statechart.View.Graph

variable {t : Tree} {c : Candidate} {i x : Nat} {label name : String}

/-- An edge of the graph is that of a candidate that leads to a node. -/
structure EdgeOf (t : Tree) (c : Candidate) (x : Nat) (edge : Edge) : Prop where
  mem : edge ∈ (ofTree t).edges
  kind : edge.kind = .transition
  source : edge.source = (t.node c.source).id
  target : edge.target = (t.node x).id
  event : edge.event = some c.event
  order : edge.order = c.index

/-- Every edge is drawn, if need be with another id. -/
theorem exists_mem_foldl_addEdge {edges : List Edge} {edge : Edge} (h : edge ∈ edges) :
    ∃ id, { edge with id } ∈ edges.foldl addEdge [] := by
  obtain ⟨drawn, hdrawn, hsame⟩ := exists_of_mem_left (drawn_foldl_addEdge edges) h
  exact ⟨drawn.id, hsame ▸ hdrawn⟩

/-- A candidate that a node has for an event is one for that event. -/
theorem event_of_candidates (w : t.Lettered) (hc : c ∈ (t.node i).candidates name) :
    c.event = name := by
  obtain ⟨h, hh, rfl, hch⟩ := handler_of_candidates hc
  exact (source_and_event w hh hch).2.1

/-- A candidate with a target has an edge. -/
theorem exists_edgeOf (hc : c ∈ (t.node i).candidates name)
    (htarget : c.target = some label) (hx : t.resolveTarget c.source label = some x) :
    ∃ edge, EdgeOf t c x edge := by
  have hi := (mem_allCandidates hc).1
  obtain ⟨h, hh, _, hch⟩ := handler_of_candidates hc
  obtain ⟨edge, hedge, hdraws⟩ := exists_transitionEdge htarget hx
  have hmem : edge ∈ t.nodes.toList.flatMap (edgesOf t) := by
    refine List.mem_flatMap.mpr ⟨t.node i, Array.mem_toList_iff.mpr (node_mem hi), ?_⟩
    exact List.mem_append_right _
      (List.mem_filterMap.mpr ⟨c, List.mem_flatMap.mpr ⟨h, hh, hch⟩, hedge⟩)
  obtain ⟨id, hid⟩ := exists_mem_foldl_addEdge hmem
  exact ⟨_, hid, hdraws.kind, hdraws.source, hdraws.target, hdraws.event, hdraws.order⟩

/-- **What a state value shows is reached from the leaves that it lists.** -/
theorem reaches_shown (w : t.Lettered) {C : NodeSet} {v : StateValue}
    (hv : StateValue.ofConfiguration t C = .ok v) (hi : Shows t C root i) :
    (ofTree t).Reaches (v.activeIds (t.node root).id).toList (t.node i).id := by
  have hwritten := (StateValue.exists_ofNode_iff w.toWellFormed).mp ⟨v, hv⟩
  obtain ⟨n, hn, hends, hwithin⟩ := (shows_iff_within_end w.toWellFormed hwritten).mp hi
  refine reaches_of_within w hwithin (hn.lt_size w.toWellFormed) ?_
  exact (StateValue.mem_activeIds w.toWellFormed hv _).mpr ⟨n, hn, hends, rfl⟩

/-- Nothing but nodes that may be active is reached from the leaves of a state value. -/
theorem exists_node_of_reaches_shown (w : t.Lettered) {C : NodeSet} {v : StateValue} {id : String}
    (hv : StateValue.ofConfiguration t C = .ok v)
    (h : (ofTree t).Reaches (v.activeIds (t.node root).id).toList id) :
    ∃ n, n < t.size ∧ t.isHistory n = false ∧ id = (t.node n).id := by
  refine exists_node_of_reaches w (fun leaf hleaf => ?_) h
  obtain ⟨n, hn, _, hid⟩ := (StateValue.mem_activeIds w.toWellFormed hv leaf).mp hleaf
  exact ⟨n, hn.lt_size w.toWellFormed, hn.active w.toWellFormed, hid.symm⟩

theorem graph_syncActive (w : t.Lettered) {o : Overlay} (hgraph : o.graph = ofTree t)
    {ids : List String} : (o.syncActive ids).1.graph = ofTree t := by
  have hends : (Call.active ids).Returns o.graph := hgraph ▸ endsFrom_ofTree w
  exact (Call.graph_run? (Call.run?_eq_run hends)).trans hgraph

theorem carries_syncActive (w : t.Lettered) {o : Overlay} (hgraph : o.graph = ofTree t)
    {ids : List String} {id : String} :
    (o.syncActive ids).1.Carries .active id ↔ (ofTree t).Reaches ids id := by
  have hends : (Call.active ids).Returns o.graph := hgraph ▸ endsFrom_ofTree w
  show ((Call.active ids).run o).1.Carries .active id ↔ _
  rw [Call.carries_run hends]
  simp [Call.kinds, Call.Marks, hgraph]

theorem carries_syncPreview (w : t.Lettered) {o : Overlay} (hgraph : o.graph = ofTree t)
    {event id : String} {ids : List String} :
    (o.syncPreview event ids).1.Carries .highlight id ↔ Call.Leads o event ids id := by
  have hends : (Call.preview event ids).Returns o.graph := hgraph ▸ endsFrom_ofTree w
  show ((Call.preview event ids).run o).1.Carries .highlight id ↔ _
  rw [Call.carries_run hends]
  simp [Call.kinds, Call.Marks]

/-- The overlay after what is active has been marked, and what an event would lead to. -/
def Overlay.hovered (o : Overlay) (m : Machine) (s : State) (e : Event) (s' : State) : Overlay :=
  ((o.syncActive (s.activeIds m.id).toList).1.syncPreview e.name (s'.activeIds m.id).toList).1

/-- A candidate with a target that an event takes has an edge. -/
theorem exists_edgeOf_of_takesOnce {m : Machine} (w : m.tree.WellFormed) {s s' : State} {e : Event}
    {selected : List Candidate} (hs : m.Standing s) (honce : m.TakesOnce s e selected s')
    (hc : c ∈ selected) (htarget : c.target = some label) :
    ∃ x, m.tree.resolveTarget c.source label = some x ∧ ∃ edge, EdgeOf m.tree c x edge := by
  obtain ⟨config, _, hreads, hselects, _⟩ := honce.exists_step
  have hselected := Selection.selected_of_select w
    (Machine.legal_of_configuration w hs hreads).toCoherent hselects
  have hproposed := hselected.proposed c hc
  obtain ⟨x, hx⟩ := hproposed.exists_target w htarget
  obtain ⟨_, _, _, i, _, hci⟩ := hproposed
  exact ⟨x, targetOf_eq_ok hx, exists_edgeOf hci htarget (targetOf_eq_ok hx)⟩

/-- **The edge of a candidate that an event takes in one step is highlighted unless it leads
to a history node, and then it is not**, if edges have different ids. -/
theorem highlight_iff_of_takesOnce {m : Machine} {chart : StateConfig} {source : Json}
    (hload : Definition.ofConfig chart source = .ok m.definition) {s s' : State} {e : Event}
    {selected : List Candidate} (hs : m.Reachable s) (honce : m.TakesOnce s e selected s')
    (o : Overlay) (hgraph : o.graph = ofTree m.tree) (hc : c ∈ selected)
    (htarget : c.target = some label) :
    ∃ x, m.tree.resolveTarget c.source label = some x ∧ (∃ edge, EdgeOf m.tree c x edge) ∧
      ∀ edge, EdgeOf m.tree c x edge →
        (m.tree.isHistory x = false →
          (o.hovered m s e s').has edge.id .highlight = true) ∧
        (m.tree.isHistory x = true → (o.graph.edges.map Edge.id).Nodup →
          (o.hovered m s e s').has edge.id .highlight = false) := by
  have w : m.tree.Lettered := lettered_of_build (Definition.build_of_ofConfig hload)
  have hid : m.id = (m.tree.node root).id := (Machine.wellFormed_of_ofConfig hload).2.symm
  have hstanding := hs.standing w.toWellFormed
  obtain ⟨C, _, hv⟩ := hstanding.value
  obtain ⟨config, step, hreads, hselects, hstep, hv'⟩ := honce.exists_step
  have hcoherent := (Machine.legal_of_configuration w.toWellFormed hstanding hreads).toCoherent
  have hselected := Selection.selected_of_select w.toWellFormed hcoherent hselects
  have hfirst : Orderly m.tree (Step.start config s.history) := ⟨hcoherent, hstanding.history⟩
  have hproposed := hselected.proposed c hc
  have hsource := (hproposed.source w.toWellFormed hcoherent).1
  obtain ⟨_, _, _, i, _, hci⟩ := hproposed
  obtain ⟨x, hx, hexists⟩ :=
    exists_edgeOf_of_takesOnce w.toWellFormed hstanding honce hc htarget
  have horderly : Orderly m.tree step := hfirst.takes w.toWellFormed hselected ⟨hstep, rfl⟩
  have hgraph' : (o.syncActive (s.value.activeIds (m.tree.node root).id).toList).1.graph =
      ofTree m.tree := graph_syncActive w hgraph
  rw [Overlay.hovered, State.activeIds, State.activeIds, hid]
  refine ⟨x, hx, hexists, fun edge hedge => ⟨fun hactive => ?_, ?_⟩⟩
  · rw [Overlay.has_iff, carries_syncPreview w hgraph']
    refine ⟨edge, ?_, hedge.kind, ?_, ?_, ?_, rfl⟩
    · exact hgraph' ▸ hedge.mem
    · rw [hedge.event, event_of_candidates w hci]
    · -- the source was active, so that a leaf at or below it is listed
      rw [carries_syncActive w hgraph, hedge.source]
      exact reaches_shown w hv
        (((Machine.shown_of_configuration w.toWellFormed hv hreads).1 _).mp hsource)
    · -- the target is active after the step
      have hxstep := Machine.mem_config_of_target w.toWellFormed hfirst hselected hstep hc htarget
        hx hactive
      rw [hgraph', hedge.target]
      exact reaches_shown w hv' (shows_of_mem w.toWellFormed horderly.config hxstep)
  · intro hhistory hnodup
    refine Bool.eq_false_iff.mpr fun hmarked => ?_
    rw [Overlay.has_iff, carries_syncPreview w hgraph'] at hmarked
    obtain ⟨edge', hmem, _, _, _, hreaches, hsame⟩ := hmarked
    have hedge' : edge' = edge :=
      List.inj_on_of_nodup_map (hgraph ▸ hnodup) (hgraph' ▸ hmem) hedge.mem hsame
    have htree : (ofTree m.tree).Reaches (s'.value.activeIds (m.tree.node root).id).toList
        (m.tree.node x).id := by
      rw [← hgraph', ← hedge.target, ← hedge']
      exact hreaches
    obtain ⟨n, hn, hactive, hname⟩ := exists_node_of_reaches_shown w hv' htree
    have hxsize : x < m.tree.size := resolveTarget_lt (hcoherent.inTree _ hsource) hx
    rw [w.eq_of_id hxsize hn hname, hactive] at hhistory
    cases hhistory

/-! ### A lamp that remembers how bright it was -/

/-- A lamp that is switched on as a whole, or through its history. -/
def lampChart : StateConfig :=
  { StateConfig.blank with
    id := some "m"
    initial := some "off"
    states := [
      ("off", { StateConfig.blank with
        on := [("ON", [{ CandidateConfig.idle with target := some "on" }]),
          ("BACK", [{ CandidateConfig.idle with target := some "on.last" }])] }),
      ("on", { StateConfig.blank with
        initial := some "low"
        states := [("low", StateConfig.blank), ("high", StateConfig.blank),
          ("last", { StateConfig.blank with history := some (.mode .shallow) })] })] }

/-- Checks that an event takes one step, and what it takes and leads to. -/
def checkOnce (m : Machine) (s : State) (e : Event) (p : List Candidate → State → Bool) : Bool :=
  !s.done && ((m.withLimit 0).transition s e).toOption.isSome &&
    (m.configuration s.value).toOption.any fun config =>
      ((m.surroundings s.context e).select config e e.name).toOption.any fun selected =>
        !selected.isEmpty && (m.transition s e).toOption.any (p selected)

theorem exists_takesOnce {m : Machine} {s : State} {e : Event} {p : List Candidate → State → Bool}
    (h : checkOnce m s e p = true) :
    ∃ selected s', m.TakesOnce s e selected s' ∧ p selected s' = true := by
  obtain ⟨h, hreads⟩ := Bool.and_eq_true_iff.mp h
  obtain ⟨hrunning, hlast⟩ := Bool.and_eq_true_iff.mp h
  obtain ⟨config, hconfig, h⟩ := exists_of_run hreads
  obtain ⟨selected, hselected, h⟩ := exists_of_run h
  obtain ⟨hsome, h⟩ := Bool.and_eq_true_iff.mp h
  obtain ⟨s', hs', hp⟩ := exists_of_run h
  cases hzero : (m.withLimit 0).transition s e with
  | error err =>
      rw [hzero] at hlast
      cases hlast
  | ok last =>
      refine ⟨selected, s', ⟨?_, ⟨config, hconfig, hselected⟩, ?_, ?_, hs'⟩, hp⟩
      · exact Bool.not_eq_true' _ ▸ hrunning
      · rintro rfl
        cases hsome
      · exact Machine.stepCount_eq_zero hzero

/-- The edge that switches the lamp on is highlighted, and it leads to a node that holds
others. -/
theorem highlight_iff_of_takesOnce_lampChart : ∃ (m : Machine) (s s' : State)
    (selected : List Candidate) (c : Candidate) (x : Nat) (edge : Edge),
    Definition.ofConfig lampChart .null = .ok m.definition ∧ m.Reachable s ∧
      m.TakesOnce s (Event.named "ON") selected s' ∧ c ∈ selected ∧ c.target = some "on" ∧
      m.tree.kind x = .compound ∧ EdgeOf m.tree c x edge ∧
      ((Overlay.ofGraph (ofTree m.tree)).hovered m s (Event.named "ON") s').has edge.id
        .highlight = true := by
  obtain ⟨d, hd, h⟩ := exists_of_run (x := Definition.ofConfig lampChart .null)
    (p := fun d => (Machine.ofDefinition d).initialState.toOption.any fun s =>
      decide (d.tree.resolveTarget 1 "on" = some 2 ∧ d.tree.kind 2 = .compound) &&
      checkOnce (Machine.ofDefinition d) s (Event.named "ON") fun selected _ =>
        selected.any fun c => c.source == 1 && c.target == some "on") (by decide +kernel)
  obtain ⟨s, hs, h⟩ := exists_of_run h
  obtain ⟨hnode, h⟩ := Bool.and_eq_true_iff.mp h
  obtain ⟨hresolves, hkind⟩ := of_decide_eq_true hnode
  obtain ⟨selected, s', honce, h⟩ := exists_takesOnce h
  obtain ⟨c, hc, h⟩ := List.any_eq_true.mp h
  obtain ⟨hsource, htarget⟩ := Bool.and_eq_true_iff.mp h
  have hreachable : (Machine.ofDefinition d).Reachable s := .initial hs
  obtain ⟨x, hx, ⟨edge, hedge⟩, hmarks⟩ :=
    highlight_iff_of_takesOnce (m := .ofDefinition d) hd hreachable honce
      (Overlay.ofGraph (ofTree d.tree)) rfl hc (beq_iff_eq.mp htarget)
  rw [beq_iff_eq.mp hsource] at hx
  obtain rfl := Option.some.inj (hx.symm.trans hresolves)
  have hactive : d.tree.isHistory 2 = false := by rw [isHistory, hkind]; rfl
  exact ⟨Machine.ofDefinition d, s, s', selected, c, 2, edge, hd, hreachable, honce, hc,
    beq_iff_eq.mp htarget, hkind, hedge, (hmarks edge hedge).1 hactive⟩

/-- The edge that switches the lamp on through its history is taken and not highlighted. -/
theorem exists_unlit_lampChart : ∃ (m : Machine) (s s' : State)
    (selected : List Candidate) (c : Candidate) (x : Nat) (edge : Edge),
    Definition.ofConfig lampChart .null = .ok m.definition ∧ m.Reachable s ∧
      m.TakesOnce s (Event.named "BACK") selected s' ∧ c ∈ selected ∧
      c.target = some "on.last" ∧ m.tree.resolveTarget c.source "on.last" = some x ∧
      EdgeOf m.tree c x edge ∧
      ((Overlay.ofGraph (ofTree m.tree)).hovered m s (Event.named "BACK") s').has edge.id
        .highlight = false := by
  obtain ⟨d, hd, h⟩ := exists_of_run (x := Definition.ofConfig lampChart .null)
    (p := fun d => (Machine.ofDefinition d).initialState.toOption.any fun s =>
      checkOnce (Machine.ofDefinition d) s (Event.named "BACK") fun selected s' =>
        (selected.any fun c => c.target == some "on.last") && (ofTree d.tree).edges.all fun edge =>
          !((Overlay.ofGraph (ofTree d.tree)).hovered (Machine.ofDefinition d) s
            (Event.named "BACK") s').has edge.id .highlight) (by decide +kernel)
  obtain ⟨s, hs, h⟩ := exists_of_run h
  obtain ⟨selected, s', honce, h⟩ := exists_takesOnce h
  obtain ⟨htaken, hunlit⟩ := Bool.and_eq_true_iff.mp h
  obtain ⟨c, hc, htarget⟩ := List.any_eq_true.mp htaken
  have w := (Machine.wellFormed_of_ofConfig hd).1
  have hreachable : (Machine.ofDefinition d).Reachable s := .initial hs
  obtain ⟨x, hx, edge, hedge⟩ := exists_edgeOf_of_takesOnce (m := Machine.ofDefinition d) w
    (hreachable.standing w) honce hc (beq_iff_eq.mp htarget)
  have hdark := List.all_eq_true.mp hunlit edge hedge.mem
  exact ⟨Machine.ofDefinition d, s, s', selected, c, x, edge, hd, hreachable, honce, hc,
    beq_iff_eq.mp htarget, hx, hedge, Bool.not_eq_true' _ ▸ hdark⟩

end View

end Statechart
