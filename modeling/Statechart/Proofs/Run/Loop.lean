/-
The loop that brings a machine to rest, turn by turn.

`settle` looks for what is taken next in one go and counts only the steps.  The loop behind
it is taken in turns: a turn tries the transitions without an event, or else offers the
completion event that has waited longest, and it ends the loop, drops the event, or takes a
step.  A turn that drops an event counts for nothing, so that the limit alone does not say
why the loop ends.  It ends because such a turn shortens the queue, which only a step fills
again: `turn_induction` is the induction on the steps that are left and, between two steps,
on the queue, and everything about the loop is proved by it.

`settle_eq_turn` is the one place where `settle` is opened.
-/
import Mathlib.Data.Nat.Init
import Statechart.Proofs.Outcome
import Statechart.Step.Settle

namespace Statechart.Step.Surroundings

open Outcome

variable {e : Surroundings} {s s' : Step} {limit taken : Nat} {r r' : Except Error Step}

/-- What a turn of the loop comes to. -/
inductive Turn
  /-- The loop is left with a result. -/
  | ends (result : Except Error Step)
  /-- A completion event is dropped, because nothing answers it. -/
  | drops (s : Step)
  /-- A step is due.  Its result counts only if the limit allows the step. -/
  | steps (result : Except Error Step)

/-- One turn of the loop. -/
def turn (e : Surroundings) (s : Step) : Turn :=
  if s.done then .ends (.ok s)
  else
    match e.select s.config e.origin Event.eventless with
    | .error err => .ends (.error err)
    | .ok (c :: more) => .steps (s.microstep e.tree (c :: more))
    | .ok [] =>
      match s.raised with
      | [] => .ends (.ok s)
      | name :: rest =>
        match e.select s.config (Event.named name) name with
        | .error err => .ends (.error err)
        | .ok (c :: more) => .steps (({ s with raised := rest } : Step).microstep e.tree (c :: more))
        | .ok [] => .drops { s with raised := rest }

/-- The loop from where some steps have been taken, and what it comes to. -/
inductive Loops (e : Surroundings) (limit : Nat) : Nat → Step → Except Error Step → Prop
  | ends {taken : Nat} {s : Step} {r : Except Error Step} (turn : e.turn s = .ends r) :
      Loops e limit taken s r
  | drops {taken : Nat} {s s' : Step} {r : Except Error Step} (turn : e.turn s = .drops s')
      (loops : Loops e limit taken s' r) : Loops e limit taken s r
  | exceeds {taken : Nat} {s : Step} {result : Except Error Step} (turn : e.turn s = .steps result)
      (beyond : limit < taken + 1) :
      Loops e limit taken s (.error (.transientCycle e.origin.name limit))
  | fails {taken : Nat} {s : Step} {err : Error} (turn : e.turn s = .steps (.error err))
      (allowed : taken + 1 ≤ limit) : Loops e limit taken s (.error err)
  | steps {taken : Nat} {s s' : Step} {r : Except Error Step} (turn : e.turn s = .steps (.ok s'))
      (allowed : taken + 1 ≤ limit) (loops : Loops e limit (taken + 1) s' r) :
      Loops e limit taken s r

/-! ### One turn -/

/-- What a turn finds, and what it comes to by that. -/
inductive Turns (e : Surroundings) (s : Step) : Turn → Prop
  | done (done : s.done = true) : Turns e s (.ends (.ok s))
  | fault {err : Error} (running : s.done = false)
      (select : e.select s.config e.origin Event.eventless = .error err) :
      Turns e s (.ends (.error err))
  | moves {selected : List Candidate} (running : s.done = false)
      (select : e.select s.config e.origin Event.eventless = .ok selected)
      (some : selected ≠ []) : Turns e s (.steps (s.microstep e.tree selected))
  | rests (running : s.done = false)
      (none : e.select s.config e.origin Event.eventless = .ok []) (raised : s.raised = []) :
      Turns e s (.ends (.ok s))
  | faultOffered {name : String} {rest : List String} {err : Error} (running : s.done = false)
      (none : e.select s.config e.origin Event.eventless = .ok []) (raised : s.raised = name :: rest)
      (select : e.select s.config (Event.named name) name = .error err) :
      Turns e s (.ends (.error err))
  | answers {name : String} {rest : List String} {selected : List Candidate}
      (running : s.done = false) (none : e.select s.config e.origin Event.eventless = .ok [])
      (raised : s.raised = name :: rest)
      (select : e.select s.config (Event.named name) name = .ok selected) (some : selected ≠ []) :
      Turns e s (.steps (({ s with raised := rest } : Step).microstep e.tree selected))
  | drops {name : String} {rest : List String} (running : s.done = false)
      (none : e.select s.config e.origin Event.eventless = .ok []) (raised : s.raised = name :: rest)
      (select : e.select s.config (Event.named name) name = .ok []) :
      Turns e s (.drops { s with raised := rest })

theorem turns (e : Surroundings) (s : Step) : Turns e s (e.turn s) := by
  unfold turn
  split
  · rename_i hdone
    exact .done hdone
  rename_i hdone
  have hrunning : s.done = false := Bool.not_eq_true _ ▸ hdone
  split
  · rename_i hselect
    exact .fault hrunning hselect
  · rename_i hselect
    exact .moves hrunning hselect (List.cons_ne_nil _ _)
  rename_i hnone
  split
  · rename_i hraised
    exact .rests hrunning hnone hraised
  rename_i name rest hraised
  split
  · rename_i hselect
    exact .faultOffered hrunning hnone hraised hselect
  · rename_i hselect
    exact .answers hrunning hnone hraised hselect (List.cons_ne_nil _ _)
  · rename_i hselect
    exact .drops hrunning hnone hraised hselect

/-- A turn that drops an event shortens the queue. -/
theorem length_of_drops (h : e.turn s = .drops s') : s'.raised.length < s.raised.length := by
  have hturns := e.turns s
  rw [h] at hturns
  cases hturns with
  | drops _ _ hraised _ =>
      rw [hraised]
      exact Nat.lt_succ_self _

/-! ### What `settle` makes of what is taken next -/

section

variable {budget : Nat} {raised : List String} {err : Error} {selected : List Candidate}

theorem next_of_error (h : e.select s.config e.origin Event.eventless = .error err) :
    e.next s = .error err := by
  rw [next, h]
  rfl

theorem next_of_some (h : e.select s.config e.origin Event.eventless = .ok selected)
    (hsome : selected ≠ []) : e.next s = .ok (selected, s.raised) := by
  rw [next, h]
  exact if_neg (by rwa [List.isEmpty_iff])

theorem next_of_none (h : e.select s.config e.origin Event.eventless = .ok []) :
    e.next s = e.offer s.config s.raised := by
  rw [next, h]
  rfl

theorem settle_of_error (hrunning : s.done = false) (h : e.next s = .error err) :
    e.settle limit budget s = .error err := by
  rw [settle.eq_def, if_neg (by rw [hrunning]; exact Bool.false_ne_true), h]
  rfl

theorem settle_of_rest (hrunning : s.done = false) (h : e.next s = .ok ([], raised)) :
    e.settle limit budget s = .ok { s with raised } := by
  rw [settle.eq_def, if_neg (by rw [hrunning]; exact Bool.false_ne_true), h]
  rfl

theorem settle_of_some (hrunning : s.done = false) (h : e.next s = .ok (selected, raised))
    (hsome : selected ≠ []) : e.settle limit budget s =
      match budget with
      | 0 => .error (.transientCycle e.origin.name limit)
      | budget + 1 =>
        ({ s with raised } : Step).microstep e.tree selected >>= e.settle limit budget := by
  rw [settle.eq_def, if_neg (by rw [hrunning]; exact Bool.false_ne_true), h]
  refine (if_neg (by rwa [List.isEmpty_iff])).trans ?_
  cases budget <;> rfl

/-- The queue counts only for what is taken next. -/
theorem settle_of_next_eq {rest : List String} (hrunning : s.done = false)
    (h : e.next { s with raised := rest } = e.next s) :
    e.settle limit budget { s with raised := rest } = e.settle limit budget s := by
  have hrunning' : ({ s with raised := rest } : Step).done = false := hrunning
  cases hnext : e.next s with
  | error err => rw [settle_of_error hrunning hnext, settle_of_error hrunning' (h.trans hnext)]
  | ok found =>
      obtain ⟨selected, raised⟩ := found
      by_cases hsome : selected = []
      · subst hsome
        rw [settle_of_rest hrunning hnext, settle_of_rest hrunning' (h.trans hnext)]
      · rw [settle_of_some hrunning hnext hsome, settle_of_some hrunning' (h.trans hnext) hsome]

end

/-- **A macrostep by its first turn.** -/
theorem settle_eq_turn (limit budget : Nat) (s : Step) :
    e.settle limit budget s =
      match e.turn s with
      | .ends r => r
      | .drops s' => e.settle limit budget s'
      | .steps result =>
        match budget with
        | 0 => .error (.transientCycle e.origin.name limit)
        | budget + 1 => result >>= e.settle limit budget := by
  have hturns := e.turns s
  generalize e.turn s = turn at hturns ⊢
  cases hturns with
  | done hdone => rw [settle.eq_def, if_pos hdone]
  | fault hrunning hselect => exact settle_of_error hrunning (next_of_error hselect)
  | moves hrunning hselect hsome =>
      exact settle_of_some hrunning (next_of_some hselect hsome) hsome
  | rests hrunning hnone hraised =>
      have hnext : e.next s = .ok ([], s.raised) := by
        rw [next_of_none hnone, hraised]
        rfl
      exact settle_of_rest hrunning hnext
  | @faultOffered name rest err hrunning hnone hraised hselect =>
      have hnext : e.next s = .error err := by
        rw [next_of_none hnone, hraised, offer, hselect]
        rfl
      exact settle_of_error hrunning hnext
  | @answers name rest selected hrunning hnone hraised hselect hsome =>
      have hnext : e.next s = .ok (selected, rest) := by
        rw [next_of_none hnone, hraised, offer, hselect]
        exact if_neg (by rwa [List.isEmpty_iff])
      exact settle_of_some hrunning hnext hsome
  | @drops name rest hrunning hnone hraised hselect =>
      -- an event that nothing answers is passed over by `offer` too
      have hnext : e.next { s with raised := rest } = e.next s := by
        rw [next_of_none hnone, hraised, offer, hselect]
        exact next_of_none hnone
      exact (settle_of_next_eq hrunning hnext).symm

/-! ### The loop -/

/-- **Induction on the steps that are left and on the queue.** -/
theorem turn_induction {P : Nat → Step → Prop}
    (h : ∀ budget s, (∀ s', e.turn s = .drops s' → P budget s') →
      (∀ left s', budget = left + 1 → e.turn s = .steps (.ok s') → P left s') → P budget s)
    (budget : Nat) : ∀ s, P budget s := by
  induction budget using Nat.strong_induction_on with
  | _ budget ih =>
      intro s
      induction hlength : s.raised.length using Nat.strong_induction_on generalizing s with
      | _ length ihdrops =>
          refine h budget s (fun s' hdrops => ?_) fun left s' hleft _ => ?_
          · exact ihdrops _ (hlength ▸ length_of_drops hdrops) s' rfl
          · exact ih left (by omega) s'

/-- The loop ends, with what `settle` says. -/
theorem loops_settle {budget : Nat} (s : Step) (htaken : taken + budget = limit) :
    Loops e limit taken s (e.settle limit budget s) := by
  induction budget, s using turn_induction (e := e) generalizing taken with
  | h budget s ihdrops ihsteps =>
  rw [settle_eq_turn]
  cases hturn : e.turn s with
  | ends r => exact .ends hturn
  | drops s' => exact .drops hturn (ihdrops s' hturn htaken)
  | steps result =>
      cases budget with
      | zero => exact .exceeds hturn (by omega)
      | succ left =>
          cases result with
          | error err => exact .fails hturn (by omega)
          | ok s' => exact .steps hturn (by omega) (ihsteps left s' rfl hturn (by omega))

/-- The loop comes to one result. -/
theorem Loops.unique (h : Loops e limit taken s r) (h' : Loops e limit taken s r') : r = r' := by
  have hsame {s : Step} {x y : Turn} (hx : e.turn s = x) (hy : e.turn s = y) : x = y :=
    hx.symm.trans hy
  induction h with
  | ends hturn =>
      cases h' with
      | ends hturn' => cases hsame hturn hturn'; rfl
      | _ hturn' => cases hsame hturn hturn'
  | drops hturn _ ih =>
      cases h' with
      | drops hturn' hloops' => cases hsame hturn hturn'; exact ih hloops'
      | _ hturn' => cases hsame hturn hturn'
  | exceeds hturn hbeyond =>
      cases h' with
      | exceeds hturn' _ => rfl
      | fails hturn' hallowed' => omega
      | steps hturn' hallowed' _ => omega
      | _ hturn' => cases hsame hturn hturn'
  | fails hturn hallowed =>
      cases h' with
      | exceeds hturn' hbeyond' => omega
      | _ hturn' => cases hsame hturn hturn'; try rfl
  | steps hturn hallowed _ ih =>
      cases h' with
      | exceeds hturn' hbeyond' => omega
      | steps hturn' _ hloops' => cases hsame hturn hturn'; exact ih hloops'
      | _ hturn' => cases hsame hturn hturn'

/-- **The loop always ends, and `settle` is what it comes to.** -/
theorem loops_iff : Loops e limit 0 s r ↔ e.settle limit limit s = r := by
  have hloops : Loops e limit 0 s (e.settle limit limit s) := loops_settle s (Nat.zero_add limit)
  constructor
  · intro h
    exact hloops.unique h
  · rintro rfl
    exact hloops

end Statechart.Step.Surroundings
