/-
When a machine is done, and what comes after that.

The flag of a state is put up while a step enters nodes, by what the final nodes among these
complete, and the configuration that the value is written of is the one in which the steps
come to rest.  The two belong together because no step is taken after the flag is up:
`Flagged` holds of a configuration and its flag from the start on, and each step keeps it
(`Raises.flagged`).

The other half of the matter is the value.  A finished node is shown as complete (`Closed`),
and of a compound root the value names the one active child, so that the flag can be read off
the value.  A machine that is done answers every event with the state it is in, whatever else
happens to the session, until another machine takes its place.
-/
import Statechart.Proofs.Run.Armed
import Statechart.Proofs.Run.Completion

namespace Statechart

open Statechart.Tree Outcome Step

/-! ### What a value shows of a finished node -/

namespace StateValue

/-- The keys that a value names at its top. -/
def heads : StateValue → List String
  | .leaf key => [key]
  | .branch entries => entries.map Prod.fst

/-- The keys that a mapping names, with what is active below each. -/
def entries : StateValue → List (String × StateValue)
  | .leaf _ => []
  | .branch entries => entries

/-- The entries of a mapping that is made of distinct keys. -/
theorem mem_entries_ofEntries {l : List (String × StateValue)} (hnodup : (l.map Prod.fst).Nodup)
    {e : String × StateValue} : e ∈ (ofEntries l).entries ↔ e ∈ l := by
  show e ∈ l.foldl (fun acc e => putEntry e.1 e.2 acc) [] ↔ e ∈ l
  rw [mem_foldl_putEntry hnodup fun a ha => absurd ha List.not_mem_nil]
  exact or_iff_right List.not_mem_nil

end StateValue

/-- A value shows a node as complete: a final node is, a compound one is by the child that it
names, and a parallel one by all its regions. -/
inductive Closed (t : Tree) : Nat → StateValue → Prop
  | final {i : Nat} {v : StateValue} (kind : t.kind i = .final) : Closed t i v
  | compound {i c : Nat} {v : StateValue} {key : String} (kind : t.kind i = .compound)
      (heads : v.heads = [key]) (child : t.child i key = some c) (final : t.kind c = .final) :
      Closed t i v
  | parallel {i : Nat} {v : StateValue} (kind : t.kind i = .parallel) (below : Nat → StateValue)
      (entries : ∀ r ∈ t.regions i, ((t.node r).key, below r) ∈ v.entries)
      (regions : ∀ r ∈ t.regions i, Closed t r (below r)) : Closed t i v

section

variable {t : Tree} {C : NodeSet} {i b c p : Nat} {v : StateValue}

/-- The value of a compound node names its active child, and nothing beside it. -/
theorem StateValue.heads_of_compound (w : t.WellFormed) (hkind : t.kind i = .compound)
    (hv : StateValue.ofNode t C i = .ok v) :
    ∃ b ∈ t.regions i, b ∈ C ∧ v.heads = [(t.node b).key] ∧
      t.child i (t.node b).key = some b := by
  cases hfind : (t.regions i).find? fun c => decide (c ∈ C) with
  | none =>
      rw [ofNode_compound_none hkind hfind] at hv
      cases hv
  | some b =>
      obtain ⟨hregion, hactive⟩ := active_of_find hfind
      refine ⟨b, hregion, hactive, ?_, w.child_key (w.mem_regions.mp hregion).1⟩
      rw [ofNode_compound hkind hfind] at hv
      split at hv
      · cases hv
        rfl
      · obtain ⟨below, -, hv⟩ := bind_eq_ok.mp hv
        cases hv
        rfl

/-- Active regions of one compound node are the same. -/
theorem Coherent.region_unique (hC : Coherent t C) (w : t.WellFormed)
    (hkind : t.kind i = .compound) (hb : b ∈ t.regions i) (hc : c ∈ t.regions i) (hbC : b ∈ C)
    (hcC : c ∈ C) : b = c :=
  hC.child_unique w hkind (w.mem_regions.mp hb).1 (w.mem_regions.mp hc).1 hbC hcC

/-- What is finished is shown as complete. -/
theorem closed_of_finished (w : t.WellFormed) (hC : Coherent t C) (h : Finished t C i) :
    ∀ {v : StateValue}, StateValue.ofNode t C i = .ok v → Closed t i v := by
  induction h with
  | final kind _ => exact fun _ => .final kind
  | @compound i c kind region final active =>
      intro v hv
      obtain ⟨b, hb, hbC, hheads, hchild⟩ := StateValue.heads_of_compound w kind hv
      obtain rfl := hC.region_unique w kind hb region hbC active
      exact .compound kind hheads hchild final
  | @parallel i kind regions ih =>
      intro v hv
      rw [StateValue.ofNode_parallel kind] at hv
      obtain ⟨entries, hentries, hv⟩ := bind_eq_ok.mp hv
      cases hv
      have hnodup := StateValue.nodup_keys_of_mapM w (w.nodup_regions i)
        (fun r hr => (w.mem_regions.mp hr).1) hentries
      have hbelow : ∀ r ∈ t.regions i, ∃ below, StateValue.ofNode t C r = .ok below := by
        intro r hr
        obtain ⟨entry, hentry⟩ := exists_of_mapM hentries hr
        obtain ⟨below, hbelow, -⟩ := bind_eq_ok.mp hentry
        exact ⟨below, hbelow⟩
      choose! below hbelow using hbelow
      refine .parallel kind below (fun r hr => ?_) fun r hr => ih r hr (hbelow r hr)
      rw [StateValue.mem_entries_ofEntries hnodup]
      exact (StateValue.mem_entries hentries).mpr ⟨r, hr, rfl, hbelow r hr⟩

end

/-! ### The flag along the steps -/

/-- The flag of a configuration is right: it is up only if the root is finished, and if the
root is a compound node it is up whenever that is so. -/
structure Flagged (t : Tree) (C : NodeSet) (done : Bool) : Prop where
  finished : done = true → (t.kind Tree.root).hasChildren = true ∧ Finished t C Tree.root
  up : t.kind Tree.root = .compound → Finished t C Tree.root → done = true

namespace Step

variable {t : Tree} {C : NodeSet} {s s' : Step} {f i : Nat} {selected : List Candidate}
  {log : List Moment}

/-- Where nothing is active the flag is down. -/
theorem flagged_empty : Flagged t SortedSet.empty false where
  finished := nofun
  up := fun hkind h => by
    obtain ⟨c, -, -, hc⟩ := (finished_compound hkind).mp h
    exact absurd hc SortedSet.not_mem_empty

/-- A final node completes only what is finished. -/
theorem Completes.finished (w : t.WellFormed) (h : Completes t C f i) (hkind : t.kind f = .final)
    (hf : f ∈ C) : Finished t C i := by
  cases h with
  | above _ _ _ _ finished => exact finished
  | parent hparent finished =>
      rcases w.kind_of_child hparent with hcompound | hparallel
      · exact .compound hcompound
          (w.mem_regions.mpr ⟨hparent, by rw [isHistory, hkind]; rfl⟩) hkind hf
      · exact finished hparallel

theorem Completes.hasChildren (w : t.WellFormed) (h : Completes t C f i) :
    (t.kind i).hasChildren = true := by
  cases h with
  | parent hparent _ => exact w.hasChildren hparent
  | above _ _ habove _ _ => exact w.hasChildren habove

/-- A step that starts with the flag down leaves it right. -/
theorem Raises.flagged (w : t.WellFormed) {entered : Nat → Prop}
    (h : Raises t s s' fun i => ∃ f, entered f ∧ t.kind f = .final ∧ Completes t s'.config f i)
    (hs : Flagged t s.config s.done) (hrunning : s.done = false)
    (hconfig : ∀ f ∈ s'.config, f ∈ s.config ∨ entered f)
    (hentered : ∀ f, entered f → f ∈ s'.config) : Flagged t s'.config s'.done := by
  refine ⟨fun hdone => ?_, fun hkind hfinished => ?_⟩
  · rcases h.done.mp hdone with hdone | ⟨f, hf, hfinal, hcompletes⟩
    · rw [hrunning] at hdone
      cases hdone
    · exact ⟨hcompletes.hasChildren w, hcompletes.finished w hfinal (hentered f hf)⟩
  · obtain ⟨c, hc, hfinal, hactive⟩ := (finished_compound hkind).mp hfinished
    rcases hconfig c hactive with hold | hnew
    · have hdone := hs.up hkind (.compound hkind hc hfinal hold)
      rw [hrunning] at hdone
      cases hdone
    · refine h.done.mpr (Or.inr ⟨c, hnew, hfinal, .parent (w.mem_regions.mp hc).1 fun h => ?_⟩)
      rw [hkind] at h
      cases h

theorem Takes.flagged (w : t.WellFormed) (h : Takes t s selected s' log)
    (hs : Flagged t s.config s.done) (hrunning : s.done = false) :
    Flagged t s'.config s'.done := by
  obtain ⟨moves, hmoves, -, hmakes⟩ := h.makes
  refine (raises_microstep w hmoves h.1).flagged w hs hrunning (fun f hf => ?_) fun f hf => ?_
  · rw [hmakes.config, SortedSet.mem_union] at hf
    exact hf.imp_left fun h => (SortedSet.mem_filter.mp h).1
  · rw [hmakes.config, SortedSet.mem_union]
    exact Or.inr hf

theorem Surroundings.Settles.flagged {e : Surroundings} (w : e.tree.WellFormed)
    (h : e.Settles s s' log) (hs : Flagged e.tree s.config s.done) :
    Flagged e.tree s'.config s'.done := by
  induction h with
  | done _ => exact hs
  | rest _ _ => exact hs
  | step hrunning _ _ htakes _ ih => exact ih (htakes.flagged w hs hrunning)

theorem flagged_initialStep {m : Machine} (w : m.tree.WellFormed) :
    Flagged m.tree m.initialStep.config m.initialStep.done :=
  (raises_initialStep w).flagged w flagged_empty rfl (fun _ hf => Or.inr hf) fun _ hf => hf

end Step

/-! ### The flag of a state -/

namespace Machine

variable {m : Machine} {s s' : State} {e : Event} {log : List Moment} {C config : NodeSet} {c p : Nat}

/-- The value of a state was written of a configuration that its flag is right about. -/
def Marked (m : Machine) (s : State) : Prop :=
  ∃ C, Coherent m.tree C ∧ StateValue.ofConfiguration m.tree C = .ok s.value ∧
    Flagged m.tree C s.done

/-- What a value shows right below a compound node is active. -/
theorem mem_of_shows_child {t : Tree} (w : t.WellFormed) (hkind : t.kind p = .compound)
    (hc : t.parent c = some p) (h : Shows t C p c) : c ∈ C := by
  rcases shows_iff.mp h with rfl | ⟨b, hstep, hb⟩
  · exact absurd (lt_of_parent hc) (Nat.lt_irrefl c)
  · have hbc := eq_of_within_of_parent hc (hstep.parent w) (hb.within w)
    cases hstep with
    | active _ hfind => exact hbc ▸ (active_of_find hfind).2
    | region hparallel _ =>
        rw [hkind] at hparallel
        cases hparallel

/-- The next macrostep starts with the flag down, and rightly so. -/
theorem Marked.flagged_start (w : m.tree.WellFormed) (h : Marked m s) (hrunning : s.done = false)
    (hreads : m.configuration s.value = .ok config) : Flagged m.tree config false := by
  refine ⟨nofun, fun hkind hfinished => ?_⟩
  obtain ⟨C, -, hv, hflagged⟩ := h
  obtain ⟨c, hc, hfinal, hactive⟩ := (finished_compound hkind).mp hfinished
  have hshows := ((shown_of_configuration w hv hreads).1 c).mp hactive
  have hcC := mem_of_shows_child w hkind (w.mem_regions.mp hc).1 hshows
  rw [← hrunning]
  exact hflagged.up hkind (.compound hkind hc hfinal hcC)

theorem done_of_finish {context : Json} {rest : Step} (h : m.finish context e rest = .ok s') :
    s'.done = rest.done := by
  obtain ⟨value, -, h⟩ := bind_eq_ok.mp h
  cases h
  rfl

theorem marked_of_finish {context : Json} {rest : Step} (hC : Coherent m.tree rest.config)
    (hflagged : Flagged m.tree rest.config rest.done) (h : m.finish context e rest = .ok s') :
    Marked m s' := by
  refine ⟨rest.config, hC, (finish_eq_ok h).1, ?_⟩
  rw [done_of_finish h]
  exact hflagged

theorem marked_initialState (w : m.tree.WellFormed) (h : m.initialState = .ok s) :
    Marked m s := by
  obtain ⟨rest, hsettles, hfinish⟩ := initialState_eq_ok h
  exact marked_of_finish (hsettles.orderly w (orderly_initialStep w)).config
    (hsettles.flagged w (flagged_initialStep w)) hfinish

theorem Leads.marked (w : m.tree.WellFormed) (hs : Standing m s) (hmarked : Marked m s)
    (h : Leads m s e s' log) : Marked m s' := by
  cases h with
  | ignored => exact hmarked
  | steps hsteps hfinish =>
      have hstart := hmarked.flagged_start w hsteps.running hsteps.reads
      have hstep : Flagged m.tree _ _ := hsteps.takes.flagged w hstart rfl
      exact marked_of_finish (hsteps.orderly w hs).config (hsteps.settles.flagged w hstep) hfinish

/-- A machine that is done shows its root as complete. -/
theorem Marked.closed (w : m.tree.WellFormed) (h : Marked m s) (hdone : s.done = true) :
    (m.tree.kind Tree.root).hasChildren = true ∧ Closed m.tree Tree.root s.value := by
  obtain ⟨C, hC, hv, hflagged⟩ := h
  obtain ⟨hkind, hfinished⟩ := hflagged.finished hdone
  exact ⟨hkind, closed_of_finished w hC hfinished hv⟩

/-- With a compound root, a machine is done when the active child is final. -/
theorem Marked.done_iff (w : m.tree.WellFormed) (h : Marked m s)
    (hkind : m.tree.kind Tree.root = .compound) :
    ∃ key c, s.value.heads = [key] ∧ m.tree.child Tree.root key = some c ∧
      (s.done = true ↔ m.tree.kind c = .final) := by
  obtain ⟨C, hC, hv, hflagged⟩ := h
  obtain ⟨b, hb, hbC, hheads, hchild⟩ := StateValue.heads_of_compound w hkind hv
  refine ⟨_, b, hheads, hchild, fun hdone => ?_, fun hfinal => ?_⟩
  · obtain ⟨c, hc, hfinal, hcC⟩ := (finished_compound hkind).mp (hflagged.finished hdone).2
    rwa [hC.region_unique w hkind hb hc hbC hcC]
  · exact hflagged.up hkind (.compound hkind hb hfinal hbC)

end Machine

/-! ### Sessions -/

/-- A state that follows a machine's end: nothing happens in it, and it shows what was there. -/
structure State.Still (before after : State) : Prop where
  done : after.done = true
  changed : after.changed = false
  actions : after.actions = []
  timers : after.timers = []
  value : after.value = before.value
  history : after.history = before.history

namespace Session

variable {s s' : Session} {state : State}

/-- A state that a session gives: its own, or one that it would come to by an event. -/
inductive Gives (s : Session) : State → Prop
  | own : Gives s s.state
  | preview {e : Event} {state : State} (preview : s.preview e = .ok state) : Gives s state

/-- What holds of the first state of a machine, and is kept by its events and by updates of
the context, holds of the state in every run. -/
theorem Career.keeps {P : Machine → State → Prop}
    (hstart : ∀ {m state}, m.tree.WellFormed → m.initialState = .ok state → P m state)
    (hevent : ∀ {m s e s' log}, m.tree.WellFormed → Machine.Standing m s → P m s →
      Machine.Leads m s e s' log → P m s')
    (hcontext : ∀ {m s} (context : Json), P m s → P m { s with context }) (h : Career s) :
    P s.machine s.state := by
  have hsend : ∀ {s : Session} {e : Event} {now : Nat}, s.machine.tree.WellFormed →
      Machine.Standing s.machine s.state → P s.machine s.state →
        P (s.send e now).1.machine (s.send e now).1.state := by
    intro s e now w hstanding hs
    unfold Session.send
    cases hpreview : s.preview e with
    | error err => exact hs
    | ok state => exact hevent w hstanding hs (Machine.leads_of_transition hpreview)
  induction h with
  | start hload hs =>
      obtain ⟨state, hstate, hs⟩ := bind_eq_ok.mp hs
      cases hs
      exact hstart (Machine.wellFormed_of_ofConfig hload).1 hstate
  | send e now hcareer ih => exact hsend hcareer.attended.wellFormed.1 hcareer.attended.standing ih
  | context patch hcareer ih =>
      unfold Session.updateContext
      split
      · exact hcontext _ ih
      · exact ih
  | @fire s key now hcareer ih =>
      unfold Session.fireTimer
      split
      · exact hsend (s := { s with timers := s.timers.cancel key })
          hcareer.attended.wellFormed.1 hcareer.attended.standing ih
      · exact ih
  | @replace s m _ _ now hload hcareer ih =>
      unfold Session.replaceMachine
      cases hfresh : Session.start m now with
      | error err => exact ih
      | ok fresh =>
          obtain ⟨state, hstate, hfresh⟩ := bind_eq_ok.mp hfresh
          cases hfresh
          exact hstart (Machine.wellFormed_of_ofConfig hload).1 hstate

theorem Career.marked (h : Career s) : Machine.Marked s.machine s.state :=
  h.keeps Machine.marked_initialState (fun w hs hmarked hleads => hleads.marked w hs hmarked)
    fun _ h => h

theorem Career.marked_of_gives (h : Career s) (hgives : Gives s state) :
    Machine.Marked s.machine state := by
  cases hgives with
  | own => exact h.marked
  | preview hpreview =>
      exact (Machine.leads_of_transition hpreview).marked h.attended.wellFormed.1
        h.attended.standing h.marked

/-- What a session goes on to with the machine that it has.  Another machine that does not
start leaves the one at work. -/
inductive Continues (s : Session) : Session → Prop
  | refl : Continues s s
  | send {s' : Session} (e : Event) (now : Nat) (continues : Continues s s') :
      Continues s (s'.send e now).1
  | fire {s' : Session} (key : TimerKey) (now : Nat) (continues : Continues s s') :
      Continues s (s'.fireTimer key now).1
  | context {s' : Session} (patch : Json) (continues : Continues s s') :
      Continues s (s'.updateContext patch).1
  | replace {s' : Session} {m : Machine} {now : Nat} {err : Error} (continues : Continues s s')
      (failed : (s'.replaceMachine m now).2 = .error err) :
      Continues s (s'.replaceMachine m now).1

/-- A session whose machine is done, with the value and the history of an earlier state. -/
structure Over (before : State) (s : Session) : Prop where
  done : s.state.done = true
  value : s.state.value = before.value
  history : s.state.history = before.history

namespace Over

variable {before : State}

theorem preview (h : Over before s) (e : Event) :
    s.preview e = .ok (s.state.unchanged e) ∧ before.Still (s.state.unchanged e) := by
  refine ⟨?_, ⟨h.done, rfl, rfl, rfl, h.value, h.history⟩⟩
  unfold Session.preview Machine.transition
  rw [if_pos h.done]

theorem send (h : Over before s) (e : Event) (now : Nat) :
    (s.send e now).1 = s.commit (s.state.unchanged e) now ∧
      (s.send e now).2 = .ok (s.state.unchanged e) := by
  unfold Session.send
  rw [(h.preview e).1]
  exact ⟨rfl, rfl⟩

theorem disarm (h : Over before s) (key : TimerKey) :
    Over before { s with timers := s.timers.cancel key } :=
  ⟨h.done, h.value, h.history⟩

theorem fireTimer (h : Over before s) {key : TimerKey} (harmed : s.timers.contains key = true)
    (now : Nat) :
    (s.fireTimer key now).1.state = s.state.unchanged (Event.named key.event) ∧
      (s.fireTimer key now).2 = .ok (some (s.state.unchanged (Event.named key.event))) := by
  unfold Session.fireTimer
  rw [if_pos harmed]
  obtain ⟨hafter, hanswer⟩ := (h.disarm key).send (Event.named key.event) now
  dsimp only
  rw [hafter, hanswer]
  exact ⟨rfl, rfl⟩

/-- Nothing but another machine takes a machine back from its end. -/
theorem continues (h : Over before s) (hs : Continues s s') : Over before s' := by
  induction hs with
  | refl => exact h
  | send e now _ ih =>
      rw [(ih.send e now).1]
      exact ⟨ih.done, ih.value, ih.history⟩
  | @fire s' key now _ ih =>
      by_cases harmed : s'.timers.contains key = true
      · obtain ⟨hstate, -⟩ := ih.fireTimer harmed now
        exact ⟨by rw [hstate]; exact ih.done, by rw [hstate]; exact ih.value,
          by rw [hstate]; exact ih.history⟩
      · unfold Session.fireTimer
        rwa [if_neg harmed]
  | context patch _ ih =>
      unfold Session.updateContext
      split
      · exact ⟨ih.done, ih.value, ih.history⟩
      · exact ih
  | @replace s' m now err _ hfailed ih =>
      unfold Session.replaceMachine at hfailed ⊢
      cases hfresh : Session.start m now with
      | error _ => exact ih
      | ok fresh =>
          rw [hfresh] at hfailed
          cases hfailed

end Over

/-- **Done is sound, and final.**  In every run, a state that is done shows its root as
complete.  With a compound root it is done exactly when the active child of the root is final.
And a session whose machine is done answers whatever comes with a state in which nothing
happens any more, until another machine is started. -/
theorem done_sound (h : Career s) :
    (∀ state, Gives s state → state.done = true →
      (s.machine.tree.kind Tree.root).hasChildren = true ∧
        Closed s.machine.tree Tree.root state.value) ∧
    (s.machine.tree.kind Tree.root = .compound → ∀ state, Gives s state →
      ∃ key c, state.value.heads = [key] ∧ s.machine.tree.child Tree.root key = some c ∧
        (state.done = true ↔ s.machine.tree.kind c = .final)) ∧
    (s.state.done = true → ∀ s', Continues s s' →
      (∀ e, ∃ state, s'.preview e = .ok state ∧ s.state.Still state) ∧
      (∀ e now, ∃ state, (s'.send e now).2 = .ok state ∧ (s'.send e now).1.state = state ∧
        s.state.Still state) ∧
      ∀ key now, s'.timers.contains key = true → ∃ state,
        (s'.fireTimer key now).2 = .ok (some state) ∧ (s'.fireTimer key now).1.state = state ∧
          s.state.Still state) := by
  have w := h.attended.wellFormed.1
  refine ⟨fun state hstate hdone => (h.marked_of_gives hstate).closed w hdone,
    fun hkind state hstate => (h.marked_of_gives hstate).done_iff w hkind,
    fun hdone s' hs' => ?_⟩
  have hover : Over s.state s' := Over.continues ⟨hdone, rfl, rfl⟩ hs'
  refine ⟨fun e => ⟨_, hover.preview e⟩, fun e now => ?_, fun key now harmed => ?_⟩
  · obtain ⟨hafter, hanswer⟩ := hover.send e now
    exact ⟨_, hanswer, by rw [hafter]; rfl, (hover.preview _).2⟩
  · obtain ⟨hafter, hanswer⟩ := hover.fireTimer harmed now
    exact ⟨_, hanswer, hafter, (hover.preview _).2⟩

/-- An errand that is over when one is home, and has to be begun anew after a second. -/
def returnChart : StateConfig :=
  { StateConfig.blank with
    id := some "m"
    initial := some "out"
    states := [
      ("out", { StateConfig.blank with
        on := [("BACK", [{ CandidateConfig.idle with target := some "home" }])] }),
      ("home", { StateConfig.blank with type := some .final })]
    after := [("1000", [{ CandidateConfig.idle with target := some "out" }])] }

/-- The timer of the whole errand, which is still armed when that is over. -/
def returnTimer : TimerKey := ⟨"m", Event.afterName 1000 "m"⟩

/-- The errand is over at home, and its timer changes nothing any more. -/
theorem done_sound_returnChart : ∃ s state, Career s ∧ s.state.done = true ∧
    Closed s.machine.tree Tree.root s.state.value ∧ s.timers.contains returnTimer = true ∧
      (s.fireTimer returnTimer 0).2 = .ok (some state) ∧ s.state.Still state := by
  have h : (Definition.ofConfig returnChart .null).toOption.any (fun d =>
      (Session.start (Machine.ofDefinition d) 0).toOption.any fun s =>
        (s.send (Event.named "BACK") 0).1.state.done &&
          (s.send (Event.named "BACK") 0).1.timers.contains returnTimer) = true := by
    decide +kernel
  obtain ⟨d, hd, h⟩ := exists_of_run h
  obtain ⟨s, hs, h⟩ := exists_of_run h
  obtain ⟨hdone, harmed⟩ := Bool.and_eq_true_iff.mp h
  have hcareer : Career (s.send (Event.named "BACK") 0).1 :=
    .send (Event.named "BACK") 0 (.start hd hs)
  obtain ⟨hclosed, -, hstill⟩ := done_sound hcareer
  obtain ⟨state, hfired, -, hstate⟩ := (hstill hdone _ .refl).2.2 returnTimer 0 harmed
  exact ⟨_, state, hcareer, hdone, (hclosed _ .own hdone).2, harmed, hfired, hstate⟩

end Session

end Statechart
