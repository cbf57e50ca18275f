/-
The order of the changes in a delta.

A call that sets one kind of marker lists what it changed by id.  A preview sets two kinds,
one on boxes and one on edges, and lists the changes of the one behind those of the other: by
kind, and by id within a kind (`listed_run`).  This is the order of the ids only where no box
that changed has an id behind that of an edge that did (`ascending_run_iff`).
-/
import Statechart.Definition.Basic
import Statechart.Proofs.Outcome
import Statechart.Proofs.View.Marking

namespace Statechart.View

open Outcome

variable {o o₁ o₂ : Overlay} {call : Call} {marker x y : Marker} {id : String}
  {changes : List (String × Marker)}

/-- Changes in the order of their ids. -/
def Ascending (changes : List (String × Marker)) : Prop :=
  changes.Pairwise fun a b => (compare a.1 b.1).isLE = true

instance : Decidable (Ascending changes) :=
  inferInstanceAs (Decidable (changes.Pairwise fun a b => (compare a.1 b.1).isLE = true))

/-- One change comes before another: by the kind of the marker, or within a kind by the id. -/
def ListedBefore (a b : String × Marker) : Prop :=
  a.2.rank < b.2.rank ∨ a.2 = b.2 ∧ compare a.1 b.1 = .lt

/-- What is listed by kind is in the order of the ids if the ids of two kinds are. -/
theorem ascending_iff_of_listed (h : changes.Pairwise ListedBefore) :
    Ascending changes ↔
      ∀ a ∈ changes, ∀ b ∈ changes, a.2.rank < b.2.rank → (compare a.1 b.1).isLE = true := by
  constructor
  · intro hascending a ha b hb hrank
    obtain ⟨i, hi, rfl⟩ := List.getElem_of_mem ha
    obtain ⟨j, hj, rfl⟩ := List.getElem_of_mem hb
    rcases Nat.lt_trichotomy i j with hij | rfl | hji
    · exact List.pairwise_iff_getElem.mp hascending i j hi hj hij
    · exact absurd hrank (Nat.lt_irrefl _)
    · -- listed first, the second change would not be of the later kind
      rcases List.pairwise_iff_getElem.mp h j i hj hi hji with hlt | ⟨heq, -⟩
      · exact absurd hlt (Nat.lt_asymm hrank)
      · exact absurd hrank (by rw [heq]; exact Nat.lt_irrefl _)
  · intro hkinds
    refine h.imp_of_mem fun {a b} ha hb hab => ?_
    rcases hab with hrank | ⟨-, hlt⟩
    · exact hkinds a ha b hb hrank
    · rw [hlt]
      rfl

/-! ### The changes of one and of two kinds -/

namespace Overlay

theorem listed_assign {wanted : SortedSet String} :
    (o.assign marker wanted).2.added.Pairwise ListedBefore ∧
      (o.assign marker wanted).2.removed.Pairwise ListedBefore := by
  have hmissing : (o.markers.missing marker wanted).Pairwise fun a b => compare a b = .lt :=
    wanted.ascending.filter _
  have hsurplus : (o.markers.surplus marker wanted).Pairwise fun a b => compare a b = .lt :=
    List.pairwise_map.mpr (o.markers.ascending.filter _)
  exact ⟨List.pairwise_map.mpr (hmissing.imp fun hlt => Or.inr ⟨rfl, hlt⟩),
    List.pairwise_map.mpr (hsurplus.imp fun hlt => Or.inr ⟨rfl, hlt⟩)⟩

/-- The changes of one kind have that kind. -/
theorem kind_of_assign {wanted : SortedSet String} {change : String × Marker}
    (h : change ∈ (o.assign marker wanted).2.added ∨
      change ∈ (o.assign marker wanted).2.removed) : change.2 = marker := by
  rcases h with h | h
  · obtain ⟨_, -, rfl⟩ := List.mem_map.mp h
    rfl
  · obtain ⟨_, -, rfl⟩ := List.mem_map.mp h
    rfl

theorem listed_assignBoth {first second : Marker} (hrank : first.rank < second.rank)
    {wanted wanted' : SortedSet String} :
    (o.assignBoth first wanted second wanted').2.added.Pairwise ListedBefore ∧
      (o.assignBoth first wanted second wanted').2.removed.Pairwise ListedBefore := by
  refine ⟨List.pairwise_append.mpr
      ⟨listed_assign.1, listed_assign.1, fun a ha b hb => Or.inl ?_⟩,
    List.pairwise_append.mpr ⟨listed_assign.2, listed_assign.2, fun a ha b hb => Or.inl ?_⟩⟩
  · rwa [kind_of_assign (Or.inl ha), kind_of_assign (Or.inl hb)]
  · rwa [kind_of_assign (Or.inr ha), kind_of_assign (Or.inr hb)]

end Overlay

namespace Call

/-- **The changes of a call are listed by kind, and within a kind by id.** -/
theorem listed_run :
    (call.run o).2.added.Pairwise ListedBefore ∧
      (call.run o).2.removed.Pairwise ListedBefore := by
  rcases run_cases o call with hr | hr
  · obtain ⟨_, _, heq, _⟩ | ⟨_, _, heq, _⟩ := run?_cases hr <;> rw [heq]
    · exact Overlay.listed_assign
    · exact Overlay.listed_assignBoth (by decide)
  · rw [hr]
    exact ⟨.nil, .nil⟩

theorem between_run : (call.run o).2.Between o (call.run o).1 := by
  rcases run_cases o call with hr | hr
  · exact between_run? hr
  · rw [hr]
    exact .same

/-- The only call that sets two kinds of markers previews. -/
theorem kinds_cases (hx : x ∈ call.kinds) (hy : y ∈ call.kinds) (h : x.rank < y.rank) :
    x = .preview ∧ y = .highlight := by
  cases call <;> cases x <;> cases y <;> simp_all [kinds, Marker.rank]

end Call

/-- An id carries a marker in the second overlay and not in the first. -/
def Gains (before after : Overlay) (marker : Marker) (id : String) : Prop :=
  after.Carries marker id ∧ ¬ before.Carries marker id

/-- Only markers that a call sets change by it. -/
theorem Gains.mem_kinds
    (h : Gains o (call.run o).1 marker id ∨ Gains (call.run o).1 o marker id) :
    marker ∈ call.kinds := by
  rcases Call.run_cases o call with hr | hr
  · by_contra hkind
    rw [Gains, Gains, Call.carries_run? hr, if_neg hkind] at h
    exact h.elim (fun h => h.2 h.1) fun h => h.2 h.1
  · rw [hr] at h
    exact h.elim (fun h => absurd h.1 h.2) fun h => absurd h.1 h.2

/-- Changes that are listed by kind, from one overlay to another that a call leads to or comes
from, are in the order of the ids if no box that changed comes behind an edge that did. -/
theorem ascending_iff_of_gains (hlisted : changes.Pairwise ListedBefore)
    (hmem : ∀ id x, (id, x) ∈ changes ↔ Gains o₁ o₂ x id)
    (hkinds : ∀ id x, Gains o₁ o₂ x id → x ∈ call.kinds) :
    Ascending changes ↔ ∀ box edge, Gains o₁ o₂ .preview box →
      Gains o₁ o₂ .highlight edge → (compare box edge).isLE = true := by
  rw [ascending_iff_of_listed hlisted]
  constructor
  · intro h box edge hbox hedge
    exact h _ ((hmem _ _).mpr hbox) _ ((hmem _ _).mpr hedge) Nat.one_lt_two
  · rintro h ⟨box, x⟩ hbox ⟨edge, y⟩ hedge hrank
    rw [hmem] at hbox hedge
    obtain ⟨rfl, rfl⟩ := Call.kinds_cases (hkinds _ _ hbox) (hkinds _ _ hedge) hrank
    exact h box edge hbox hedge

/-- **When the changes of a call are in the order of their ids.**  In every overlay the markers
that a call adds are listed by id exactly when no box that it gives the mark of a preview has an
id behind that of an edge that it highlights, and those that it removes when no box that loses
that mark comes behind an edge that does.  So they are by every call but a preview and one that
clears it; by these they are within each of the two kinds of markers. -/
theorem ascending_run_iff (o : Overlay) (call : Call) :
    (Ascending (call.run o).2.added ↔
      ∀ box edge, Gains o (call.run o).1 .preview box →
        Gains o (call.run o).1 .highlight edge → (compare box edge).isLE = true) ∧
    (Ascending (call.run o).2.removed ↔
      ∀ box edge, Gains (call.run o).1 o .preview box →
        Gains (call.run o).1 o .highlight edge → (compare box edge).isLE = true) ∧
    (.preview ∉ call.kinds →
      Ascending (call.run o).2.added ∧ Ascending (call.run o).2.removed) ∧
    (call.run o).2.added.Pairwise ListedBefore ∧
    (call.run o).2.removed.Pairwise ListedBefore := by
  have hbetween : (call.run o).2.Between o (call.run o).1 := Call.between_run
  have hkinds : ∀ id x, Gains o (call.run o).1 x id → x ∈ call.kinds :=
    fun _ _ h => Gains.mem_kinds (Or.inl h)
  have hkinds' : ∀ id x, Gains (call.run o).1 o x id → x ∈ call.kinds :=
    fun _ _ h => Gains.mem_kinds (Or.inr h)
  have hiff := ascending_iff_of_gains Call.listed_run.1 hbetween.added hkinds
  have hiff' := ascending_iff_of_gains Call.listed_run.2 hbetween.removed hkinds'
  refine ⟨hiff, hiff', fun hkind => ⟨hiff.mpr ?_, hiff'.mpr ?_⟩,
    Call.listed_run.1, Call.listed_run.2⟩
  · exact fun _ _ hbox => absurd (Gains.mem_kinds (Or.inl hbox)) hkind
  · exact fun _ _ hbox => absurd (Gains.mem_kinds (Or.inr hbox)) hkind

/-! ### A preview whose changes are not in the order of their ids -/

/-- An overlay after some calls that are known to end. -/
def Overlay.after (o : Overlay) (calls : List Call) : Overlay :=
  calls.foldl (fun o call => (call.run o).1) o

/-- Two states, and an event that leads from the one to the other. -/
def passageChart : StateConfig :=
  { StateConfig.blank with
    id := some "m"
    initial := some "a"
    states := [
      ("a", { StateConfig.blank with
        on := [("GO", [{ CandidateConfig.idle with target := some "b" }])] }),
      ("b", StateConfig.blank)] }

/-- The edge that a preview of the event highlights is listed behind the state it leads to,
though its id comes before that of the state. -/
theorem exists_unordered_passageChart : ∃ d : Definition,
    Definition.ofConfig passageChart .null = .ok d ∧
      ¬ ∀ (calls : List Call) (call : Call),
        Ascending (call.run ((Overlay.ofGraph (Graph.ofTree d.tree)).after calls)).2.added ∧
          Ascending (call.run ((Overlay.ofGraph (Graph.ofTree d.tree)).after calls)).2.removed := by
  obtain ⟨d, hd, h⟩ := exists_of_run (x := Definition.ofConfig passageChart .null)
    (p := fun d => decide (¬ Ascending ((Call.preview "GO" ["m.b"]).run
      ((Overlay.ofGraph (Graph.ofTree d.tree)).after [.active ["m.a"]])).2.added))
    (by decide +kernel)
  exact ⟨d, hd, fun hall => of_decide_eq_true h (hall _ _).1⟩

end Statechart.View
