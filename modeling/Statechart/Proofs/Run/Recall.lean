/-
History nodes bring back what was left.

A transition to a history node leaves below the parent of the node what was active there
when the parent was last exited: all of it for a deep node, and for a shallow one the
children with their default descents.  If the parent was never exited, it is the default
descent of the parent.

This is where the two halves meet: what the run says of the record (`Course.invariant`), and
what grows below the parent from a record (`grown_below_remembered`).
-/
import Statechart.Proofs.Entry.Restored
import Statechart.Proofs.Run.Course
import Statechart.Proofs.Value.Described

namespace Statechart

open Statechart.Tree Outcome Step Entry

variable {t : Tree} {s s' : Step} {d : Stride} {past : List Stride} {h D P i : Nat}
  {kind : HistoryKind}

namespace Strides

/-- Below the parent of a history node that is targeted, what grows from its seeds is active. -/
theorem mem_below (w : t.WellFormed) (hstride : Strides t s d s') (hs : Orderly t s)
    (hmove : (h, D) ∈ d.moves) (hhistory : t.isHistory h = true) (hP : t.parent h = some P) :
    t.Within P D ∧ ∀ i, t.Below i P →
      (i ∈ s'.config ↔ Grown t D (seeds t s'.history h) i) := by
  obtain ⟨config, moves⟩ := d
  obtain ⟨rfl, hfit, hmakes⟩ := hstride
  have hPD : t.Within P D := by
    rcases hfit.under _ hmove with hb | ⟨hroot, _⟩
    · exact (below_iff_of_parent hP).mp hb
    · have hroot : h = Tree.root := hroot
      rw [hroot, w.root_kind] at hhistory
      cases hhistory
  refine ⟨hPD, fun i hi => ?_⟩
  rw [hmakes.config, hmakes.history]
  exact mem_after_below w hs.history hfit hmove (hi.below hPD)

end Strides

namespace Machine

variable {m : Machine} {e : Surroundings}

/-- **History restores what was left.**  Every state that a machine comes to is at the end of a
course.  Right after a step of a course that targets a history node, below the parent of the
node its default descent is active if the parent was never exited, and otherwise what the
configuration that it was last exited in says, if that was legal and its parallel nodes had
regions. -/
theorem history_restores {c : StateConfig} {source : Json}
    (hload : Definition.ofConfig c source = .ok m.definition) :
    (∀ s, Reachable m s → ∃ past, Course m (.resting s) past) ∧
    ∀ (e : Surroundings) (s : Step) (past : List Stride) (d : Stride) (h D P : Nat)
      (kind : HistoryKind), Course m (.amid e s) (past ++ [d]) → (h, D) ∈ d.moves →
      m.tree.kind h = .history kind → m.tree.parent h = some P →
      (lastExit m.tree P (past ++ [d]) = none →
        ∀ i, m.tree.Below i P → (i ∈ s.config ↔ Descent m.tree P i)) ∧
      ∀ C, lastExit m.tree P (past ++ [d]) = some C → Legal m.tree C → Full m.tree C →
        ∀ i, m.tree.Below i P → (i ∈ s.config ↔ Restored m.tree kind P C i) := by
  have w : m.tree.WellFormed := (wellFormed_of_ofConfig hload).1
  refine ⟨fun s hs => hs.exists_course, ?_⟩
  intro e s past d h D P kind hcourse hmove hkind hP
  have hhistory : m.tree.isHistory h = true := by rw [isHistory, hkind]; rfl
  have hstriding : Striding m e s (past ++ [d]) := hcourse.invariant w
  obtain ⟨s₀, hs₀, _, hstride⟩ := hstriding.last past d rfl
  obtain ⟨hPD, hbelow⟩ := hstride.mem_below w hs₀ hmove hhistory hP
  have hrecord := hstriding.recalls h kind P hkind hP
  refine ⟨fun hnever i hi => ?_, fun C hexit hC hfull i hi => ?_⟩
  · rw [hnever] at hrecord
    rw [hbelow i hi, seeds_of_none hhistory hP hrecord, grown_below_parent w hi]
  · rw [hexit] at hrecord
    have hne := remembered_ne_nil w kind hC hfull hP (mem_of_lastExit hexit)
    rw [hbelow i hi, seeds_of_some hhistory hP hrecord hne,
      grown_below_remembered w hC hfull hPD hi]

/-! ### A machine that comes back -/

/-- A parallel node that is entered by its history, leaves the first state of a region at once,
and goes to its history again. -/
def retreatChart : StateConfig :=
  let back := [("BACK", [{ CandidateConfig.idle with target := some "#m.work.h" }])]
  { StateConfig.blank with
    id := some "m"
    initial := some "idle"
    states := [
      ("idle", { StateConfig.blank with on := back }),
      ("work", { StateConfig.blank with
        type := some .parallel
        states := [
          ("a", { StateConfig.blank with
            initial := some "x"
            states := [
              ("x", { StateConfig.blank with
                on := [("", [{ CandidateConfig.idle with target := some "y" }])] }),
              ("y", { StateConfig.blank with on := back })] }),
          ("b", StateConfig.blank),
          ("h", { StateConfig.blank with history := some (.mode .deep) })] })] }

/-- Checks the stride that an event takes from rest, and where it leads. -/
def checkStride (m : Machine) (s : State) (e : Event) (p : Stride → Step → Bool) : Bool :=
  !s.done && (m.configuration s.value).toOption.any fun config =>
    ((m.surroundings s.context e).select config e e.name).toOption.any fun selected =>
      !selected.isEmpty && (selected.mapM (targetAndDomain m.tree)).toOption.any fun targets =>
        ((Step.start config s.history).microstep m.tree selected).toOption.any
          (p ⟨config, targets.filterMap fun move => move⟩)

theorem Course.exists_stride {s : State} {e : Event} {p : Stride → Step → Bool}
    (hcourse : Course m (.resting s) past) (h : checkStride m s e p = true) :
    ∃ step d, Course m (.amid (m.surroundings s.context e) step) (past ++ [d]) ∧
      p d step = true := by
  obtain ⟨hrunning, h⟩ := Bool.and_eq_true_iff.mp h
  obtain ⟨config, hreads, h⟩ := exists_of_run h
  obtain ⟨selected, hselects, h⟩ := exists_of_run h
  obtain ⟨hsome, h⟩ := Bool.and_eq_true_iff.mp h
  obtain ⟨targets, htargets, h⟩ := exists_of_run h
  obtain ⟨step, hstep, hp⟩ := exists_of_run h
  refine ⟨step, _, hcourse.event ?_ hreads hselects ?_ hstep ⟨targets, htargets, rfl⟩, hp⟩
  · exact Bool.not_eq_true' _ ▸ hrunning
  · rintro rfl
    cases hsome

/-- At first the history enters the default descent; the second time the parallel node is
exited and what was active in it comes back, in one step. -/
theorem history_restores_retreatChart : ∃ m e s past d e' s' past' d',
    Definition.ofConfig retreatChart .null = .ok m.definition ∧
      (Course m (.amid e s) (past ++ [d]) ∧ (7, 0) ∈ d.moves ∧
        lastExit m.tree 2 (past ++ [d]) = none ∧
        ∀ i, m.tree.Below i 2 → (i ∈ s.config ↔ Descent m.tree 2 i)) ∧
      Course m (.amid e' s') (past' ++ [d']) ∧ (7, 0) ∈ d'.moves ∧
        lastExit m.tree 2 (past' ++ [d']) = some d'.config ∧ 5 ∈ d'.config ∧
        ∀ i, m.tree.Below i 2 → (i ∈ s'.config ↔ i ∈ d'.config) := by
  obtain ⟨definition, hload, h⟩ := exists_of_run (x := Definition.ofConfig retreatChart .null)
    (p := fun d => (ofDefinition d).initialState.toOption.any fun s =>
      decide (d.tree.kind 7 = .history .deep ∧ d.tree.parent 7 = some 2) &&
      checkStride (ofDefinition d) s (Event.named "BACK") (fun stride step =>
        decide ((7, 0) ∈ stride.moves ∧ step.history.get? 7 = none)) &&
      ((ofDefinition d).transition s (Event.named "BACK")).toOption.any fun s' =>
        checkStride (ofDefinition d) s' (Event.named "BACK") fun stride _ =>
          decide ((7, 0) ∈ stride.moves ∧ stride.Exits d.tree 2 ∧ 5 ∈ stride.config ∧
            Full d.tree stride.config) && isLegal d.tree stride.config) (by decide +kernel)
  have w : (ofDefinition definition).tree.WellFormed := (wellFormed_of_ofConfig hload).1
  obtain ⟨s, hs, h⟩ := exists_of_run h
  obtain ⟨h, hlater⟩ := Bool.and_eq_true_iff.mp h
  obtain ⟨hnode, hfirst⟩ := Bool.and_eq_true_iff.mp h
  obtain ⟨hkind, hP⟩ := of_decide_eq_true hnode
  obtain ⟨s', hs', hlater⟩ := exists_of_run hlater
  obtain ⟨hcover, hrestores⟩ := history_restores (m := ofDefinition definition) hload
  obtain ⟨past, hcourse⟩ := hcover s (.initial hs)
  obtain ⟨step, d, hcourse, hfirst⟩ := hcourse.exists_stride hfirst
  obtain ⟨hmove, hget⟩ := of_decide_eq_true hfirst
  obtain ⟨past', hcourse'⟩ := hcover s' (.event (.initial hs) hs')
  obtain ⟨step', d', hcourse', hlater⟩ := hcourse'.exists_stride hlater
  obtain ⟨hlater, hlegal⟩ := Bool.and_eq_true_iff.mp hlater
  obtain ⟨hmove', hexits, hmem, hfull⟩ := of_decide_eq_true hlater
  have hnever : lastExit definition.tree 2 (past ++ [d]) = none := by
    have hrecalls := (hcourse.invariant w).recalls 7 .deep 2 hkind hP
    rw [hget] at hrecalls
    exact Option.map_eq_none_iff.mp hrecalls.symm
  have hexit : lastExit definition.tree 2 (past' ++ [d']) = some d'.config := by
    rw [lastExit_concat, if_pos hexits]
  exact ⟨ofDefinition definition, _, step, past, d, _, step', past', d', hload,
    ⟨hcourse, hmove, hnever, (hrestores _ _ _ _ 7 0 2 _ hcourse hmove hkind hP).1 hnever⟩,
    hcourse', hmove', hexit, hmem,
    (hrestores _ _ _ _ 7 0 2 _ hcourse' hmove' hkind hP).2 _ hexit ((isLegal_iff w).mp hlegal) hfull⟩

end Machine

end Statechart
