/-
Transitions that are taken together.

A step takes several transitions at once: it exits below all their domains, records, and
enters what all their targets grow into.  The domains are in no line, so that each of the
transitions finds below its own domain what it would find without the others: the nodes to
exit, what a history node is to remember of them, and what it does remember.  The change of
a list of moves is therefore the change of its first part and then of the rest
(`history_append`, `after_append`), and the description of a change by membership does not
know the order of the moves.  Both together say that the transitions may as well be taken one
by one, in any order.

Nothing is asked of the records that were there before.  If they fit no configuration, the
steps may lead to none, but to the same set of nodes.
-/
import Mathlib.Data.List.Perm.Basic
import Statechart.Proofs.Step.Legality

namespace Statechart.Step

open Statechart.Tree Outcome Entry

variable {t : Tree} {config : NodeSet} {history : HistoryStore} {moves a b : List (Nat × Nat)}
  {i : Nat}

/-! ### What a step reads -/

/-- What is remembered of a node is what is active below it. -/
theorem remembered_congr (w : t.WellFormed) {kind : HistoryKind} {P : Nat} {C C' : NodeSet}
    (h : ∀ i, t.Below i P → (i ∈ C ↔ i ∈ C')) :
    HistoryStore.remembered t kind P C = HistoryStore.remembered t kind P C' := by
  cases kind with
  | shallow =>
      refine List.filter_congr fun c hc => ?_
      rw [decide_eq_decide]
      exact h c (below_of_parent (w.mem_regions.mp hc).1)
  | deep =>
      have hfilter : C.filter (fun n => t.isLeaf n && t.isDescendant n P) =
          C'.filter fun n => t.isLeaf n && t.isDescendant n P := by
        refine SortedSet.ext fun n => ?_
        rw [SortedSet.mem_filter, SortedSet.mem_filter, Bool.and_eq_true, isDescendant_iff]
        constructor
        · rintro ⟨hn, hleaf, hb⟩
          exact ⟨(h n hb).mp hn, hleaf, hb⟩
        · rintro ⟨hn, hleaf, hb⟩
          exact ⟨(h n hb).mpr hn, hleaf, hb⟩
      exact congrArg SortedSet.toList hfilter

theorem exists_kind_of_isHistory (h : t.isHistory i = true) :
    ∃ kind, t.kind i = .history kind := by
  cases hkind : t.kind i with
  | history kind => exact ⟨kind, rfl⟩
  | _ => rw [isHistory, hkind] at h; cases h

/-- A target stands for what its own record says. -/
theorem seeds_congr {history' : HistoryStore} {T : Nat} (h : history.get? T = history'.get? T) :
    seeds t history T = seeds t history' T := by
  unfold seeds
  rw [h]

/-! ### The moves of two parts -/

namespace Fit

theorem left (hfit : Fit t config (a ++ b)) : Fit t config a where
  domain m hm := hfit.domain m (List.mem_append_left _ hm)
  under m hm := hfit.under m (List.mem_append_left _ hm)
  inTree m hm := hfit.inTree m (List.mem_append_left _ hm)
  apart := (List.pairwise_append.mp hfit.apart).1

/-- What is below a domain of the second part is below none of the first. -/
theorem not_below (hfit : Fit t config (a ++ b)) {k : Nat × Nat} (hk : k ∈ b)
    (hi : t.Below i k.2) : ∀ m ∈ a, ¬ t.Below i m.2 := fun m hm =>
  ((List.pairwise_append.mp hfit.apart).2.2 m hm k hk).2 i hi.within

/-- A domain of the second part is below none of the first. -/
theorem domain_not_below (hfit : Fit t config (a ++ b)) {k : Nat × Nat} (hk : k ∈ b) :
    ∀ m ∈ a, ¬ t.Below k.2 m.2 := fun m hm =>
  ((List.pairwise_append.mp hfit.apart).2.2 m hm k hk).2 k.2 within_self

theorem perm (hfit : Fit t config a) (h : a.Perm b) : Fit t config b where
  domain m hm := hfit.domain m (h.mem_iff.mpr hm)
  under m hm := hfit.under m (h.mem_iff.mpr hm)
  inTree m hm := hfit.inTree m (h.mem_iff.mpr hm)
  apart := (h.pairwise_iff fun hmk => ⟨hmk.2, hmk.1⟩).mp hfit.apart

end Fit

theorem mem_exits_append : i ∈ (Change.of t config history (a ++ b)).exits ↔
    i ∈ (Change.of t config history a).exits ∨ i ∈ (Change.of t config history b).exits := by
  simp only [mem_exits, List.mem_append, or_and_right, exists_or, and_or_left]

section

variable (w : t.WellFormed) {Q : NodeSet → Prop} (hmade : MadeFrom t Q history)
  (hfit : Fit t config (a ++ b))

include w hmade hfit

/-- The first part leaves alone what is below the domains of the second. -/
theorem mem_after_left {k : Nat × Nat} (hk : k ∈ b) (hi : t.Below i k.2) :
    i ∈ (Change.of t config history a).after ↔ i ∈ config :=
  mem_after_elsewhere w hmade hfit.left (hfit.not_below hk hi)

/-- The moves of the second part are as fit after the first. -/
theorem fit_after : Fit t (Change.of t config history a).after b where
  domain k hk := (mem_after_elsewhere w hmade hfit.left (hfit.domain_not_below hk)).mpr
    (hfit.domain k (List.mem_append_right _ hk))
  under k hk := hfit.under k (List.mem_append_right _ hk)
  inTree k hk := hfit.inTree k (List.mem_append_right _ hk)
  apart := (List.pairwise_append.mp hfit.apart).2.1

/-- **The records of two parts are those of the whole.** -/
theorem history_append :
    (Change.of t (Change.of t config history a).after (Change.of t config history a).history
      b).history = (Change.of t config history (a ++ b)).history := by
  refine SortedMap.ext fun j => ?_
  by_cases hchild : ∃ P, j ∈ t.historyChildren P
  · obtain ⟨P, hchild⟩ := hchild
    obtain ⟨hP, hj⟩ := (mem_historyChildren w).mp hchild
    obtain ⟨kind, hkind⟩ := exists_kind_of_isHistory hj
    rw [get?_change_history w hkind hP, get?_change_history w hkind hP,
      get?_change_history w hkind hP]
    by_cases hb : ∃ k ∈ b, t.Below P k.2
    · -- the parent is exited by the second part or not at all
      obtain ⟨k, hk, hPk⟩ := hb
      have hremembered : HistoryStore.remembered t kind P (Change.of t config history a).after =
          HistoryStore.remembered t kind P config :=
        remembered_congr w fun i hi => mem_after_left w hmade hfit hk (hi.trans hPk)
      have hfirst : P ∉ (Change.of t config history a).exits := fun h => by
        obtain ⟨_, m, hm, hb⟩ := mem_exits.mp h
        exact hfit.not_below hk hPk m hm hb
      rw [hremembered, if_neg hfirst]
      refine if_congr ?_ rfl rfl
      rw [mem_exits_append, or_iff_right hfirst, mem_exits, mem_exits,
        mem_after_left w hmade hfit hk hPk]
    · have hnever : ∀ (C : NodeSet) (h : HistoryStore), P ∉ (Change.of t C h b).exits :=
        fun _ _ h => hb (mem_exits.mp h).2
      rw [if_neg (hnever _ _)]
      refine if_congr ?_ rfl rfl
      rw [mem_exits_append, or_iff_left (hnever _ _)]
  · push Not at hchild
    have hkept : ∀ (C : NodeSet) (h : HistoryStore) (l : List (Nat × Nat)),
        (Change.of t C h l).history.get? j = h.get? j := fun C h l =>
      HistoryStore.get?_recordAll_of_not_mem fun i _ => hchild i
    rw [hkept, hkept, hkept]

/-- A target of the first part stands for the same when the second part is taken as well. -/
theorem seeds_append {m : Nat × Nat} (hm : m ∈ a) :
    seeds t (Change.of t config history (a ++ b)).history m.1 =
      seeds t (Change.of t config history a).history m.1 := by
  refine seeds_congr ?_
  rw [← history_append w hmade hfit]
  by_cases hchild : ∃ P, m.1 ∈ t.historyChildren P
  · obtain ⟨P, hchild⟩ := hchild
    obtain ⟨hP, hj⟩ := (mem_historyChildren w).mp hchild
    obtain ⟨kind, hkind⟩ := exists_kind_of_isHistory hj
    have hPm : t.Within P m.2 := by
      rcases hfit.left.under m hm with hb | ⟨hroot, _⟩
      · exact (below_iff_of_parent hP).mp hb
      · rw [hroot, w.root_parent] at hP
        cases hP
    rw [get?_change_history w hkind hP, if_neg]
    intro h
    obtain ⟨_, k, hk, hPk⟩ := mem_exits.mp h
    exact ((List.pairwise_append.mp hfit.apart).2.2 m hm k hk).1 P hPm hPk
  · push Not at hchild
    exact HistoryStore.get?_recordAll_of_not_mem fun i _ => hchild i

/-- **The change of two parts is that of the whole.** -/
theorem after_append :
    (Change.of t (Change.of t config history a).after (Change.of t config history a).history
      b).after = (Change.of t config history (a ++ b)).after := by
  have hmade' : MadeFrom t (fun _ => True) (Change.of t config history a).history :=
    recorded_change hmade
  have hfit' := fit_after w hmade hfit
  refine SortedSet.ext fun i => ?_
  by_cases hb : ∃ k ∈ b, t.Below i k.2
  · obtain ⟨k, hk, hik⟩ := hb
    rw [mem_after_below w hmade' hfit' hk hik, history_append w hmade hfit,
      mem_after_below w hmade hfit (List.mem_append_right _ hk) hik]
  push Not at hb
  rw [mem_after_elsewhere w hmade' hfit' hb]
  by_cases ha : ∃ m ∈ a, t.Below i m.2
  · obtain ⟨m, hm, him⟩ := ha
    rw [mem_after_below w hmade hfit.left hm him,
      mem_after_below w hmade hfit (List.mem_append_left _ hm) him, seeds_append w hmade hfit hm]
  · push Not at ha
    rw [mem_after_elsewhere w hmade hfit.left ha, mem_after_elsewhere w hmade hfit]
    intro m hm
    exact (List.mem_append.mp hm).elim (ha m) (hb m)

end

/-! ### The order of the moves -/

/-- What is exited, and so what is recorded, does not depend on the order of the moves. -/
theorem exits_perm (h : a.Perm b) :
    (Change.of t config history a).exits = (Change.of t config history b).exits := by
  refine SortedSet.ext fun i => ?_
  rw [mem_exits, mem_exits]
  exact and_congr_right fun _ => exists_congr fun m => and_congr_left' h.mem_iff

theorem history_perm (h : a.Perm b) :
    (Change.of t config history a).history = (Change.of t config history b).history := by
  have hexits : (Change.of t config history a).exits = (Change.of t config history b).exits :=
    exits_perm h
  exact congrArg (fun exits : NodeSet => exits.toList.foldl (recordExit t config) history) hexits

theorem after_perm (w : t.WellFormed) {Q : NodeSet → Prop} (hmade : MadeFrom t Q history)
    (hfit : Fit t config a) (h : a.Perm b) :
    (Change.of t config history a).after = (Change.of t config history b).after := by
  refine SortedSet.ext fun i => ?_
  rw [mem_after w hmade hfit, mem_after w hmade (hfit.perm h), mem_kept, mem_kept, history_perm h]
  simp only [h.mem_iff]

/-- Without moves nothing changes. -/
theorem after_nil (w : t.WellFormed) {Q : NodeSet → Prop} (hmade : MadeFrom t Q history) :
    (Change.of t config history []).after = config :=
  SortedSet.ext fun _ => mem_after_elsewhere w hmade ⟨nofun, nofun, nofun, .nil⟩ nofun

/-! ### One transition after the other -/

/-- The target of a candidate with its domain, if it has one that is found. -/
def moveOf (t : Tree) (c : Candidate) : Option (Nat × Nat) :=
  match targetAndDomain t c with
  | .ok move => move
  | .error _ => none

theorem movesOf_iff {selected : List Candidate} : MovesOf t selected moves ↔
    (∀ c ∈ selected, ∃ move, targetAndDomain t c = .ok move) ∧
      moves = selected.filterMap (moveOf t) := by
  have hmoves : ∀ {l : List Candidate} {targets : List (Option (Nat × Nat))},
      l.mapM (targetAndDomain t) = .ok targets → targets.filterMap id = l.filterMap (moveOf t) := by
    intro l targets h
    have hall := mapM_eq_ok.mp h
    clear h
    induction hall with
    | nil => rfl
    | @cons c move l targets hc _ ih =>
        have hmove : moveOf t c = move := by rw [moveOf, hc]
        rw [List.filterMap_cons, List.filterMap_cons, hmove, ih]
        rfl
  constructor
  · rintro ⟨targets, htargets, rfl⟩
    exact ⟨fun c hc => exists_of_mapM htargets hc, hmoves htargets⟩
  · rintro ⟨hall, rfl⟩
    obtain ⟨targets, htargets⟩ := exists_mapM hall
    exact ⟨targets, htargets, (hmoves htargets).symm⟩

theorem MovesOf.perm {selected l : List Candidate} (h : MovesOf t selected moves)
    (hperm : selected.Perm l) : ∃ moves', MovesOf t l moves' ∧ moves.Perm moves' := by
  obtain ⟨hall, rfl⟩ := movesOf_iff.mp h
  exact ⟨_, movesOf_iff.mpr ⟨fun c hc => hall c (hperm.mem_iff.mpr hc), rfl⟩, hperm.filterMap _⟩

/-- The moves of the first candidate and of the others. -/
theorem MovesOf.cons {c : Candidate} {rest : List Candidate} (h : MovesOf t (c :: rest) moves) :
    ∃ own others, MovesOf t [c] own ∧ MovesOf t rest others ∧ moves = own ++ others := by
  obtain ⟨hall, rfl⟩ := movesOf_iff.mp h
  refine ⟨_, _, movesOf_iff.mpr ⟨fun d hd => hall d ?_, rfl⟩,
    movesOf_iff.mpr ⟨fun d hd => hall d (List.mem_cons_of_mem _ hd), rfl⟩, ?_⟩
  · rw [List.mem_singleton.mp hd]
    exact List.mem_cons_self ..
  · rw [← List.filterMap_append]
    rfl

/-- **Taking candidates one by one makes the change of all their moves.** -/
theorem foldlM_microstep (w : t.WellFormed) {l : List Candidate} :
    ∀ {s : Step} {moves : List (Nat × Nat)} {Q : NodeSet → Prop}, MovesOf t l moves →
      MadeFrom t Q s.history → Fit t s.config moves →
      ∃ s', l.foldlM (fun s c => s.microstep t [c]) s = .ok s' ∧
        s'.config = (Change.of t s.config s.history moves).after ∧
        s'.history = (Change.of t s.config s.history moves).history := by
  induction l with
  | nil =>
      intro s moves Q hmoves hmade _
      obtain ⟨_, rfl⟩ := movesOf_iff.mp hmoves
      exact ⟨s, rfl, (after_nil w hmade).symm, rfl⟩
  | cons c rest ih =>
      intro s moves Q hmoves hmade hfit
      obtain ⟨own, others, hown, hothers, rfl⟩ := hmoves.cons
      obtain ⟨s₁, hs₁, hmakes⟩ := microstep_of_moves (s := s) hown
      have hconfig : s₁.config = (Change.of t s.config s.history own).after := hmakes.config
      have hhistory : s₁.history = (Change.of t s.config s.history own).history := hmakes.history
      have hmade' : MadeFrom t (fun _ => True) s₁.history := by
        rw [hhistory]
        exact recorded_change hmade
      have hfit' : Fit t s₁.config others := by
        rw [hconfig]
        exact fit_after w hmade hfit
      obtain ⟨s', hs', hconfig', hhistory'⟩ := ih hothers hmade' hfit'
      refine ⟨s', ?_, ?_, ?_⟩
      · rw [List.foldlM_cons]
        exact bind_eq_ok.mpr ⟨s₁, hs₁, hs'⟩
      · rw [hconfig', hconfig, hhistory, after_append w hmade hfit]
      · rw [hhistory', hconfig, hhistory, history_append w hmade hfit]

/-- **Transitions that are taken together commute.**  What is selected in a coherent
configuration, so in every legal one, can be taken at once, and one by one in any order, with
the same nodes active and the same records afterwards, whatever sort of configurations the
history was recorded from. -/
theorem microsteps_commute {name : String} {c : StateConfig} (h : Tree.build name c = .ok t)
    {s : Step} (hC : Coherent t s.config) {Q : NodeSet → Prop} (hmade : MadeFrom t Q s.history)
    {scope : GuardScope} {event : String} {selected : List Candidate}
    (hselect : Selection.select t scope event s.config = .ok selected) :
    ∃ s', s.microstep t selected = .ok s' ∧ ∀ l, selected.Perm l →
      ∃ s'', l.foldlM (fun s c => s.microstep t [c]) s = .ok s'' ∧
        s''.config = s'.config ∧ s''.history = s'.history := by
  have w : t.WellFormed := wellFormed_of_build h
  have hselected := Selection.selected_of_select w hC hselect
  obtain ⟨moves, hmoves⟩ := exists_movesOf w hselected.proposed
  have hfit := hmoves.fit w hC hselected
  obtain ⟨s', hs', hmakes⟩ := microstep_of_moves (s := s) hmoves
  refine ⟨s', hs', fun l hl => ?_⟩
  obtain ⟨moves', hmoves', hperm⟩ := hmoves.perm hl
  obtain ⟨s'', hs'', hconfig, hhistory⟩ := foldlM_microstep w hmoves' hmade (hfit.perm hperm)
  refine ⟨s'', hs'', ?_, ?_⟩
  · rw [hconfig, ← after_perm w hmade hfit hperm, hmakes.config]
    rfl
  · rw [hhistory, ← history_perm hperm, hmakes.history]

/-- Two regions that answer one event, one by leaving a node that is to be remembered and the
other by going to a history node. -/
def duet : StateConfig :=
  let inner (first second kind) := [(first, StateConfig.blank), (second, StateConfig.blank),
    ("h", { StateConfig.blank with history := some (.mode kind) })]
  let go (target) := [("GO", [{ CandidateConfig.idle with target := some target }])]
  { StateConfig.blank with
    type := some .parallel
    states := [
      ("a", { StateConfig.blank with
        initial := some "c"
        states := [
          ("c", { StateConfig.blank with
            initial := some "x"
            states := inner "x" "y" .shallow
            on := go "d" }),
          ("d", StateConfig.blank)] }),
      ("b", { StateConfig.blank with
        initial := some "u"
        states := [
          ("u", { StateConfig.blank with on := go "v.h" }),
          ("v", { StateConfig.blank with
            initial := some "p"
            states := inner "p" "q" .deep })] })] }

/-- The duet at its start, when the second node of its last history has been recorded. -/
def duetStep (t : Tree) : Step :=
  { (machineOf t).initialStep with
    history := HistoryStore.record t SortedMap.empty 9 (SortedSet.ofList [0, 1, 2, 3, 7, 9, 11]) }

/-- The two transitions of the duet, and the same backwards. -/
theorem microsteps_commute_duet : ∃ t selected s' s'', Tree.build "m" duet = .ok t ∧
    Selection.select t ⟨SortedMap.empty, .null, Event.named "GO"⟩ "GO" (duetStep t).config =
      .ok selected ∧
    (duetStep t).microstep t selected = .ok s' ∧
    selected.reverse.foldlM (fun s c => s.microstep t [c]) (duetStep t) = .ok s'' ∧
    s''.config = s'.config ∧ s''.history = s'.history ∧ selected.length = 2 ∧
    s'.config.toList = [0, 1, 6, 7, 9, 11] ∧ s'.history.get? 5 = some ⟨.shallow, [3]⟩ := by
  have h : (Tree.build "m" duet).toOption.any (fun t =>
      (Selection.select t ⟨SortedMap.empty, .null, Event.named "GO"⟩ "GO"
        (duetStep t).config).toOption.any fun selected =>
          ((duetStep t).microstep t selected).toOption.any fun s' =>
            decide (selected.length = 2 ∧ s'.config.toList = [0, 1, 6, 7, 9, 11] ∧
              s'.history.get? 5 = some ⟨.shallow, [3]⟩)) = true := by
    decide +kernel
  obtain ⟨t, ht, h⟩ := exists_of_run h
  obtain ⟨selected, hselected, h⟩ := exists_of_run h
  obtain ⟨s', hs', h⟩ := exists_of_run h
  have hlegal : Legal t (machineOf t).initialStep.config :=
    legal_initialStep (m := machineOf t) (wellFormed_of_build ht)
  have hC : Coherent t (duetStep t).config := hlegal.toCoherent
  have hmade : MadeFrom t (fun _ => True) (duetStep t).history := .record 9 .empty trivial
  obtain ⟨s₁, hs₁, hall⟩ := microsteps_commute ht hC hmade hselected
  obtain rfl : s' = s₁ := Except.ok.inj (hs'.symm.trans hs₁)
  obtain ⟨s'', hs'', hconfig, hhistory⟩ := hall selected.reverse (List.reverse_perm _).symm
  exact ⟨t, selected, s', s'', ht, hselected, hs', hs'', hconfig, hhistory, of_decide_eq_true h⟩

end Statechart.Step
