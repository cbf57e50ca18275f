/-
What lasts since a node was entered.

`since` cuts a log off at the last entry of a node.  Two things last from there until some
moment ends them.  The node is active until it is exited, and each timer that its entry arms
stays armed until the node is exited or the timer is fired.  Both are `Lasting`, with the
moments that end them, and one lemma says what a single moment does to it
(`lasting_concat`).

The configuration of a step keeps up with the log of what has happened (`Tracks`), and the
registry does so for every timer of a node (`contains_apply_commands`).
-/
import Statechart.Proofs.Run.Moments
import Statechart.Proofs.Timer.Registry

namespace Statechart

open Statechart.Tree Step TimerRegistry

variable {t : Tree} {n : Nat} {mo : Moment} {log chunk ends : List Moment}

/-- What has happened since a node was last entered, if it ever was. -/
def since (n : Nat) : List Moment → Option (List Moment)
  | [] => none
  | mo :: rest => (since n rest).or (if mo = .entered n then some rest else none)

/-- A node was entered, and nothing that ends it has happened since. -/
def Lasting (n : Nat) (ends log : List Moment) : Prop :=
  ∃ post, since n log = some post ∧ ∀ mo ∈ ends, mo ∉ post

theorem since_concat :
    since n (log ++ [mo]) =
      if mo = .entered n then some [] else (since n log).map fun post => post ++ [mo] := by
  induction log with
  | nil => rfl
  | cons first rest ih =>
      rw [List.cons_append, since, ih, since]
      split
      · rfl
      · cases since n rest with
        | some post => rfl
        | none =>
            rw [Option.map_none, Option.none_or, Option.none_or]
            split <;> rfl

/-- What one more moment does: it is an entry of the node, or it leaves things as they are
unless it ends them. -/
theorem lasting_concat :
    Lasting n ends (log ++ [mo]) ↔ mo = .entered n ∨ (mo ∉ ends ∧ Lasting n ends log) := by
  unfold Lasting
  rw [since_concat]
  by_cases hentered : mo = .entered n
  · rw [if_pos hentered]
    exact ⟨fun _ => Or.inl hentered, fun _ => ⟨[], rfl, fun _ _ => List.not_mem_nil⟩⟩
  rw [if_neg hentered]
  constructor
  · rintro ⟨_, hsince, hends⟩
    obtain ⟨post, hpost, rfl⟩ := Option.map_eq_some_iff.mp hsince
    refine Or.inr ⟨fun hmo => hends mo hmo ?_, post, hpost, fun e he hmem => hends e he ?_⟩
    · exact List.mem_append_right _ (List.mem_singleton.mpr rfl)
    · exact List.mem_append_left _ hmem
  · rintro (h | ⟨hmo, post, hpost, hends⟩)
    · exact absurd h hentered
    · refine ⟨post ++ [mo], by rw [hpost]; rfl, fun e he hmem => ?_⟩
      rcases List.mem_append.mp hmem with hmem | hmem
      · exact hends e he hmem
      · exact hmo (List.mem_singleton.mp hmem ▸ he)

theorem not_lasting_nil : ¬ Lasting n ends [] := nofun

/-- Without an entry of the node things last as long as nothing ends them. -/
theorem lasting_append_of_not_entered (h : .entered n ∉ chunk) :
    Lasting n ends (log ++ chunk) ↔ (∀ mo ∈ ends, mo ∉ chunk) ∧ Lasting n ends log := by
  induction chunk generalizing log with
  | nil => simp
  | cons mo rest ih =>
      rw [List.mem_cons, not_or] at h
      rw [List.append_cons, ih h.2, lasting_concat]
      simp only [List.mem_cons, Ne.symm h.1, false_or, not_or]
      constructor
      · rintro ⟨hrest, hmo, hlog⟩
        exact ⟨fun e he => ⟨fun heq => hmo (heq ▸ he), hrest e he⟩, hlog⟩
      · rintro ⟨hends, hlog⟩
        exact ⟨fun e he => (hends e he).2, fun hmo => (hends mo hmo).1 rfl, hlog⟩

/-- Where nothing ends things an entry of the node is all that counts. -/
theorem lasting_append_of_not_ended (h : ∀ mo ∈ ends, mo ∉ chunk) :
    Lasting n ends (log ++ chunk) ↔ .entered n ∈ chunk ∨ Lasting n ends log := by
  induction chunk generalizing log with
  | nil => simp
  | cons mo rest ih =>
      have hmo : mo ∉ ends := fun hmo => h mo hmo List.mem_cons_self
      rw [List.append_cons, ih fun e he hmem => h e he (List.mem_cons_of_mem _ hmem),
        lasting_concat, List.mem_cons]
      constructor
      · rintro (hmem | rfl | ⟨_, hlog⟩)
        · exact Or.inl (Or.inr hmem)
        · exact Or.inl (Or.inl rfl)
        · exact Or.inr hlog
      · rintro ((rfl | hmem) | hlog)
        · exact Or.inr (Or.inl rfl)
        · exact Or.inl hmem
        · exact Or.inr (Or.inr ⟨hmo, hlog⟩)

/-! ### Active nodes -/

/-- A configuration has the nodes that were entered and not exited since. -/
def Tracks (config : NodeSet) (log : List Moment) : Prop :=
  ∀ n, n ∈ config ↔ Lasting n [.exited n] log

namespace Step

variable {s s' : Step} {selected : List Candidate}

/-- A configuration keeps up with a change. -/
theorem Change.tracks {d : Change} {moves : List (Nat × Nat)} {config : NodeSet}
    (hkept : ∀ i, i ∈ d.kept ↔ i ∈ config ∧ i ∉ d.exits) (h : Tracks config log) :
    Tracks (d.kept.union d.entered) (log ++ d.moments moves) := by
  intro n
  have hstart : Moment.entered n ∉ moves.map (fun m => Moment.moved m.1 m.2) ++
      d.exits.toList.reverse.map Moment.exited := by simp
  have hend : ∀ mo ∈ [Moment.exited n], mo ∉ d.entered.toList.map Moment.entered := by simp
  have hexited : (∀ mo ∈ [Moment.exited n], mo ∉ moves.map (fun m => Moment.moved m.1 m.2) ++
      d.exits.toList.reverse.map Moment.exited) ↔ n ∉ d.exits := by
    rw [← SortedSet.mem_toList, List.forall_mem_singleton]
    simp
  have hentered : Moment.entered n ∈ d.entered.toList.map Moment.entered ↔ n ∈ d.entered := by
    simp [← SortedSet.mem_toList]
  rw [Change.moments, ← List.append_assoc, lasting_append_of_not_ended hend,
    lasting_append_of_not_entered hstart, hexited, hentered, ← h n, SortedSet.mem_union, hkept,
    or_comm, and_comm]

theorem Takes.tracks (h : Takes t s selected s' chunk) (hs : Tracks s.config log) :
    Tracks s'.config (log ++ chunk) := by
  obtain ⟨moves, _, rfl, hmakes⟩ := h.makes
  rw [hmakes.config]
  refine Change.tracks (fun i => ?_) hs
  rw [Change.of, SortedSet.mem_filter, decide_eq_true_eq]

theorem Surroundings.Settles.tracks {e : Surroundings} (h : e.Settles s s' chunk)
    (hs : Tracks s.config log) : Tracks s'.config (log ++ chunk) := by
  induction h generalizing log with
  | done _ => rwa [List.append_nil]
  | rest _ _ => rwa [List.append_nil]
  | step _ _ _ htakes _ ih =>
      rw [← List.append_assoc]
      exact ih (htakes.tracks hs)

end Step

/-! ### Armed timers -/

/-- Only nodes of the tree wait for delayed events. -/
theorem lt_size_of_delayed {e : String × Nat} (h : e ∈ (t.node n).delayedEvents) : n < t.size := by
  rcases t.node_cases n with ⟨hnode, _⟩ | ⟨_, _, hlt⟩
  · rw [hnode] at h
    exact absurd h List.not_mem_nil
  · exact hlt

/-- A timer belongs to one node. -/
theorem eq_of_timerKey (w : t.WellFormed) (hn : n < t.size) {i delay : Nat} {event event' : String}
    (hi : (event', delay) ∈ (t.node i).delayedEvents)
    (hkey : timerKey (t.node i) event' = timerKey (t.node n) event) : i = n :=
  w.eq_of_id (lt_size_of_delayed hi) hn (congrArg TimerKey.node hkey)

/-- The moments that disarm a timer of a node. -/
def disarming (t : Tree) (n : Nat) (event : String) : List Moment :=
  [.exited n, .fired (timerKey (t.node n) event)]

section

variable {r : TimerRegistry} {now delay : Nat} {event : String}

/-- An entry of the node arms the timer. -/
theorem lastFor_entered (hevent : (event, delay) ∈ (t.node n).delayedEvents) :
    ∃ k d, lastFor (timerKey (t.node n) event) (commands t (.entered n)) = some (.arm k d) := by
  have hnamed : .arm (timerKey (t.node n) event) delay ∈ arms (t.node n) :=
    List.mem_map.mpr ⟨_, hevent, rfl⟩
  obtain ⟨c, hc, hlast⟩ := exists_lastFor hnamed rfl
  obtain ⟨e, _, rfl⟩ := List.mem_map.mp hc
  exact ⟨_, _, hlast⟩

/-- What disarms the timer cancels it. -/
theorem lastFor_disarming (hevent : (event, delay) ∈ (t.node n).delayedEvents)
    (h : mo ∈ disarming t n event) :
    ∃ k, lastFor (timerKey (t.node n) event) (commands t mo) = some (.cancel k) := by
  rcases List.mem_cons.mp h with rfl | h
  · have hnamed : .cancel (timerKey (t.node n) event) ∈ cancels (t.node n) :=
      List.mem_map.mpr ⟨_, hevent, rfl⟩
    obtain ⟨c, hc, hlast⟩ := exists_lastFor hnamed rfl
    obtain ⟨e, _, rfl⟩ := List.mem_map.mp hc
    exact ⟨_, hlast⟩
  · cases List.mem_singleton.mp h
    have hnamed : .cancel (timerKey (t.node n) event) ∈
        [TimerCommand.cancel (timerKey (t.node n) event)] := List.mem_singleton.mpr rfl
    obtain ⟨c, hc, hlast⟩ := exists_lastFor hnamed rfl
    rw [List.mem_singleton.mp hc] at hlast
    exact ⟨_, hlast⟩

/-- Any other moment leaves the timer alone, because it belongs to other nodes. -/
theorem lastFor_other (w : t.WellFormed) (hn : n < t.size) (hentered : mo ≠ .entered n)
    (hdisarming : mo ∉ disarming t n event) :
    lastFor (timerKey (t.node n) event) (commands t mo) = none := by
  rw [disarming, List.mem_cons, List.mem_singleton, not_or] at hdisarming
  refine lastFor_eq_none_iff.mpr fun c hc hkey => ?_
  cases mo with
  | moved x D => cases hc
  | exited i =>
      obtain ⟨⟨event', delay⟩, hevent', rfl⟩ := List.mem_map.mp hc
      exact hdisarming.1 (by rw [eq_of_timerKey w hn hevent' hkey])
  | entered i =>
      obtain ⟨⟨event', delay⟩, hevent', rfl⟩ := List.mem_map.mp hc
      exact hentered (by rw [eq_of_timerKey w hn hevent' hkey])
  | fired key =>
      cases List.mem_singleton.mp hc
      cases hkey
      exact hdisarming.2 rfl

/-- What one moment does to a timer of a node. -/
theorem contains_commands (w : t.WellFormed) (hn : n < t.size)
    (hevent : (event, delay) ∈ (t.node n).delayedEvents) :
    (r.apply (commands t mo) now).contains (timerKey (t.node n) event) = true ↔
      mo = .entered n ∨ (mo ∉ disarming t n event ∧
        r.contains (timerKey (t.node n) event) = true) := by
  rw [contains_iff, contains_iff, get?_apply]
  by_cases hentered : mo = .entered n
  · obtain ⟨k, d, hlast⟩ := lastFor_entered hevent
    rw [hentered, hlast]
    exact ⟨fun _ => Or.inl rfl, fun _ => ⟨_, rfl⟩⟩
  by_cases hdisarming : mo ∈ disarming t n event
  · obtain ⟨k, hlast⟩ := lastFor_disarming hevent hdisarming
    rw [hlast]
    exact ⟨nofun, fun h => absurd hdisarming (h.resolve_left hentered).1⟩
  · rw [lastFor_other w hn hentered hdisarming]
    exact ⟨fun h => Or.inr ⟨hdisarming, h⟩, fun h => (h.resolve_left hentered).2⟩

/-- **The registry keeps up with the log**: a timer of a node is armed as long as it lasts. -/
theorem contains_apply_commands (w : t.WellFormed) (hn : n < t.size)
    (hevent : (event, delay) ∈ (t.node n).delayedEvents)
    (h : r.contains (timerKey (t.node n) event) = true ↔ Lasting n (disarming t n event) log) :
    (r.apply (chunk.flatMap (commands t)) now).contains (timerKey (t.node n) event) = true ↔
      Lasting n (disarming t n event) (log ++ chunk) := by
  induction chunk generalizing r log with
  | nil => rwa [List.append_nil]
  | cons mo rest ih =>
      rw [List.flatMap_cons, List.append_cons, TimerRegistry.apply, List.foldl_append]
      refine ih ?_
      rw [lasting_concat, ← h]
      exact contains_commands w hn hevent

end

end Statechart
