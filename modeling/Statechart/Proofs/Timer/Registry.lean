/-
What the timers of a registry are.

A registry carries out lists of commands.  For one timer only the last command that names
it counts, because arming replaces and cancelling forgets (`get?_apply`).  The timers
that are due at a moment are those with a deadline at or before it, each listed once.
-/
import Mathlib.Data.List.Nodup
import Statechart.Timer

namespace Statechart.TimerRegistry

variable {r : TimerRegistry} {key : TimerKey} {now : Nat}

/-- The last command of a list that names a timer. -/
def lastFor (key : TimerKey) (commands : List TimerCommand) : Option TimerCommand :=
  (commands.filter fun c => decide (c.key = key)).getLast?

theorem lastFor_eq_none_iff {commands : List TimerCommand} :
    lastFor key commands = none ↔ ∀ c ∈ commands, c.key ≠ key := by
  rw [lastFor, List.getLast?_eq_none_iff, List.filter_eq_nil_iff]
  simp only [decide_eq_true_eq]

theorem mem_of_lastFor {commands : List TimerCommand} {c : TimerCommand}
    (h : lastFor key commands = some c) : c ∈ commands ∧ c.key = key := by
  obtain ⟨hmem, hkey⟩ := List.mem_filter.mp (List.mem_of_getLast? h)
  exact ⟨hmem, of_decide_eq_true hkey⟩

/-- A timer that is named at all is named last by some command. -/
theorem exists_lastFor {commands : List TimerCommand} {c : TimerCommand} (hc : c ∈ commands)
    (hkey : c.key = key) : ∃ last ∈ commands, lastFor key commands = some last := by
  cases h : lastFor key commands with
  | none => exact absurd hkey (lastFor_eq_none_iff.mp h c hc)
  | some last => exact ⟨last, (mem_of_lastFor h).1, rfl⟩

/-- The deadline that a command leaves at its timer. -/
def deadline (now : Nat) : TimerCommand → Option Nat
  | .arm _ delay => some (now + delay * millisecond)
  | .cancel _ => none

theorem get?_cancel {k : TimerKey} :
    (r.cancel k).get? key = if k = key then none else r.get? key :=
  SortedMap.get?_erase

theorem get?_run (c : TimerCommand) :
    (run now r c).get? key = if c.key = key then deadline now c else r.get? key := by
  cases c with
  | arm k delay => exact SortedMap.get?_insert
  | cancel k => exact get?_cancel

/-- **Of the commands that name a timer the last one counts.** -/
theorem get?_apply (commands : List TimerCommand) :
    (r.apply commands now).get? key =
      match lastFor key commands with
      | some c => deadline now c
      | none => r.get? key := by
  induction commands generalizing r with
  | nil => rfl
  | cons c rest ih =>
      have hstep : r.apply (c :: rest) now = (run now r c).apply rest now := rfl
      rw [hstep, ih, get?_run]
      unfold lastFor
      by_cases hkey : c.key = key
      · rw [List.filter_cons_of_pos (by simpa using hkey), List.getLast?_cons, if_pos hkey]
        cases (rest.filter fun c => decide (c.key = key)).getLast? <;> rfl
      · rw [List.filter_cons_of_neg (by simpa using hkey), if_neg hkey]

/-- A timer is armed when it has a deadline. -/
theorem contains_iff : r.contains key = true ↔ ∃ d, r.get? key = some d := by
  rw [SortedMap.contains, Option.isSome_iff_exists]

/-- A timer that is armed after some commands is armed by one of them, or was armed before and
is named by none. -/
theorem contains_apply_cases {commands : List TimerCommand}
    (h : (r.apply commands now).contains key = true) :
    (∃ delay, .arm key delay ∈ commands) ∨
      (r.contains key = true ∧ ∀ c ∈ commands, c.key ≠ key) := by
  obtain ⟨d, hd⟩ := contains_iff.mp h
  rw [get?_apply] at hd
  cases hlast : lastFor key commands with
  | none =>
      rw [hlast] at hd
      exact Or.inr ⟨contains_iff.mpr ⟨d, hd⟩, lastFor_eq_none_iff.mp hlast⟩
  | some c =>
      obtain ⟨hmem, rfl⟩ := mem_of_lastFor hlast
      rw [hlast] at hd
      cases c with
      | arm k delay => exact Or.inl ⟨delay, hmem⟩
      | cancel k => cases hd

/-- Commands are carried out one list after the other. -/
theorem apply_append {first last : List TimerCommand} :
    r.apply (first ++ last) now = (r.apply first now).apply last now :=
  List.foldl_append ..

/-! ### Timers that are due -/

theorem mem_alarms {a : Alarm} : a ∈ r.alarms ↔ r.get? a.key = some a.deadline := by
  rw [alarms, SortedSet.mem_ofList, SortedMap.get?_eq_some_iff, List.mem_map]
  constructor
  · rintro ⟨e, he, rfl⟩
    exact he
  · intro h
    exact ⟨(a.key, a.deadline), h, rfl⟩

/-- A timer is due when its deadline has come. -/
theorem mem_due : key ∈ r.due now ↔ ∃ d, d ≤ now ∧ r.get? key = some d := by
  rw [due, List.mem_map]
  constructor
  · rintro ⟨a, ha, rfl⟩
    obtain ⟨hmem, hdue⟩ := List.mem_filter.mp ha
    exact ⟨a.deadline, by simpa using hdue, mem_alarms.mp hmem⟩
  · rintro ⟨d, hd, h⟩
    exact ⟨⟨d, key⟩, List.mem_filter.mpr ⟨mem_alarms.mpr h, by simpa using hd⟩, rfl⟩

/-- A timer that is due is listed once. -/
theorem nodup_due : (r.due now).Nodup := by
  rw [due]
  refine (List.nodup_map_iff_inj_on (r.alarms.nodup_toList.filter _)).mpr ?_
  intro a ha b hb hkey
  have hda := mem_alarms.mp (List.mem_filter.mp ha).1
  have hdb := mem_alarms.mp (List.mem_filter.mp hb).1
  rw [hkey, hdb] at hda
  cases a
  cases b
  cases hkey
  cases hda
  rfl

end Statechart.TimerRegistry
