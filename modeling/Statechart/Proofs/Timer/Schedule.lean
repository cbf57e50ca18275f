/-
What a registry holds after any calls.

A registry is filled by lists of commands, each list at some moment; timers are also
cancelled one at a time, or all together.  Of everything that was done to a timer only the
last thing counts: the timer is armed if it was armed last, and since the registry was last
cleared (`get?_after`).  How often and in what order other timers were armed leaves no trace.

Which timers are due, and in what order they are listed, follows from the deadlines alone:
there is one list with the timers that are due, the earliest first (`eq_of_listsDue`).
-/
import Mathlib.Data.List.Induction
import Statechart.Proofs.Timer.Registry

namespace Statechart

/-- An alarm comes before another if its deadline does, or at one deadline its key. -/
theorem Alarm.compare_eq_lt {a b : Alarm} :
    compare a b = .lt ↔
      a.deadline < b.deadline ∨ a.deadline = b.deadline ∧ compare a.key b.key = .lt := by
  show (compare a.deadline b.deadline).then (compare a.key b.key) = .lt ↔ _
  rw [Ordering.then_eq_lt, Nat.compare_eq_lt, Nat.compare_eq_eq]

namespace TimerRegistry

/-! ### Calls -/

/-- A call that changes a registry. -/
inductive Call
  | apply (commands : List TimerCommand) (now : Nat)
  | cancel (key : TimerKey)
  | clear

namespace Call

/-- What a call does to a registry. -/
def run (r : TimerRegistry) : Call → TimerRegistry
  | apply commands now => r.apply commands now
  | cancel key => r.cancel key
  | clear => r.clear

/-- A call does not touch a timer. -/
def Spares (key : TimerKey) : Call → Prop
  | apply commands _ => ∀ c ∈ commands, c.key ≠ key
  | cancel other => other ≠ key
  | clear => False

end Call

/-- A registry after some calls, which was empty before them. -/
def after (calls : List Call) : TimerRegistry :=
  calls.foldl Call.run SortedMap.empty

/-- The last thing that some calls do to a timer is to arm it, at a moment and with a delay. -/
def LastArmed (calls : List Call) (key : TimerKey) (now delay : Nat) : Prop :=
  ∃ before after first last,
    calls = before ++ .apply (first ++ .arm key delay :: last) now :: after ∧
      (∀ c ∈ last, c.key ≠ key) ∧ ∀ call ∈ after, call.Spares key

/-- A timer that was armed last waits for the moment at which it was, and its delay. -/
def Awaits (calls : List Call) (key : TimerKey) (d : Nat) : Prop :=
  ∃ now delay, LastArmed calls key now delay ∧ d = now + delay * millisecond

section Calls

variable {r : TimerRegistry} {calls : List Call} {call : Call} {key : TimerKey}
  {commands : List TimerCommand} {now delay d : Nat}

/-- The last command that names a timer stands before others that do not. -/
theorem lastFor_eq_some_iff {c : TimerCommand} :
    lastFor key commands = some c ↔
      ∃ first last, commands = first ++ c :: last ∧ c.key = key ∧ ∀ c' ∈ last, c'.key ≠ key := by
  rw [lastFor, List.getLast?_filter, List.find?_eq_some_iff_append]
  simp only [decide_eq_true_eq, Bool.not_eq_true', decide_eq_false_iff_not]
  constructor
  · rintro ⟨hkey, last, first, hsplit, hlast⟩
    refine ⟨first.reverse, last.reverse, ?_, hkey, fun c' hc' => hlast c' (by simpa using hc')⟩
    rw [← List.reverse_reverse commands, hsplit]
    simp
  · rintro ⟨first, last, rfl, hkey, hlast⟩
    exact ⟨hkey, last.reverse, first.reverse, by simp, fun c' hc' => hlast c' (by simpa using hc')⟩

theorem after_concat : after (calls ++ [call]) = call.run (after calls) :=
  List.foldl_concat ..

theorem not_lastArmed_nil : ¬ LastArmed [] key now delay := by
  rintro ⟨before, after, first, last, hcalls, _⟩
  simp at hcalls

/-- One more call decides about the timers that it touches. -/
theorem lastArmed_concat :
    LastArmed (calls ++ [call]) key now delay ↔
      (∃ commands, call = .apply commands now ∧
        lastFor key commands = some (.arm key delay)) ∨
      (call.Spares key ∧ LastArmed calls key now delay) := by
  constructor
  · rintro ⟨before, after, first, last, hcalls, hlast, hafter⟩
    rcases List.eq_nil_or_concat after with rfl | ⟨after, c, rfl⟩
    · obtain ⟨-, hcall⟩ := List.append_inj' hcalls rfl
      refine Or.inl ⟨_, List.singleton_injective hcall, ?_⟩
      exact lastFor_eq_some_iff.mpr ⟨first, last, rfl, rfl, hlast⟩
    · rw [List.concat_eq_append, ← List.cons_append, ← List.append_assoc] at hcalls
      obtain ⟨hbefore, hcall⟩ := List.append_inj' hcalls rfl
      rw [List.singleton_injective hcall]
      rw [List.concat_eq_append] at hafter
      exact Or.inr ⟨hafter c (by simp), before, after, first, last, hbefore, hlast,
        fun other hother => hafter other (by simp [hother])⟩
  · rintro (⟨commands, rfl, hlast⟩ | ⟨hspares, before, after, first, last, rfl, hlast, hafter⟩)
    · obtain ⟨first, last, rfl, -, hlast⟩ := lastFor_eq_some_iff.mp hlast
      exact ⟨calls, [], first, last, rfl, hlast, fun _ h => absurd h List.not_mem_nil⟩
    · refine ⟨before, after ++ [call], first, last, by simp, hlast, fun other hother => ?_⟩
      rcases List.mem_append.mp hother with h | h
      · exact hafter other h
      · rwa [List.mem_singleton.mp h]

theorem awaits_concat :
    Awaits (calls ++ [call]) key d ↔
      (∃ commands now delay, call = .apply commands now ∧
        lastFor key commands = some (.arm key delay) ∧ d = now + delay * millisecond) ∨
      (call.Spares key ∧ Awaits calls key d) := by
  unfold Awaits
  simp only [lastArmed_concat]
  constructor
  · rintro ⟨now, delay, ⟨commands, hcall, hlast⟩ | ⟨hspares, harmed⟩, hd⟩
    · exact Or.inl ⟨commands, now, delay, hcall, hlast, hd⟩
    · exact Or.inr ⟨hspares, now, delay, harmed, hd⟩
  · rintro (⟨commands, now, delay, hcall, hlast, hd⟩ | ⟨hspares, now, delay, harmed, hd⟩)
    · exact ⟨now, delay, Or.inl ⟨commands, hcall, hlast⟩, hd⟩
    · exact ⟨now, delay, Or.inr ⟨hspares, harmed⟩, hd⟩

/-- The deadline of a timer after a call is what the call has made of it. -/
theorem get?_call :
    (call.run r).get? key = some d ↔
      (∃ commands now delay, call = .apply commands now ∧
        lastFor key commands = some (.arm key delay) ∧ d = now + delay * millisecond) ∨
      (call.Spares key ∧ r.get? key = some d) := by
  cases call with
  | apply commands now =>
      rw [Call.run, get?_apply, Call.Spares, ← lastFor_eq_none_iff]
      cases hlast : lastFor key commands with
      | none => simp [hlast]
      | some c =>
          obtain ⟨-, hkey⟩ := mem_of_lastFor hlast
          cases c with
          | arm k delay =>
              have hkey : k = key := hkey
              simp [deadline, hlast, hkey, eq_comm]
          | cancel k => simp [deadline, hlast]
  | cancel other =>
      rw [Call.run, get?_cancel, Call.Spares]
      by_cases hkey : other = key <;> simp [hkey]
  | clear => simp [Call.run, Call.Spares, clear]

/-- **Of all that is done to a timer the last thing counts.** -/
theorem get?_after : (after calls).get? key = some d ↔ Awaits calls key d := by
  induction calls using List.reverseRecOn with
  | nil =>
      have hnone : ¬ Awaits [] key d := fun ⟨_, _, h, _⟩ => not_lastArmed_nil h
      simp [after, hnone]
  | append_singleton calls call ih => rw [after_concat, get?_call, awaits_concat, ih]

end Calls

/-! ### The list of the timers that are due -/

/-- Among timers with deadlines, one comes before another: by its deadline, or at one deadline
by its key. -/
def Earlier (deadlines : TimerKey → Nat → Prop) (a b : TimerKey) : Prop :=
  ∃ d d', deadlines a d ∧ deadlines b d' ∧ (d < d' ∨ d = d' ∧ compare a b = .lt)

/-- A list of the timers whose deadline has come, the earlier ones first. -/
structure ListsDue (deadlines : TimerKey → Nat → Prop) (now : Nat) (l : List TimerKey) : Prop where
  mem_iff : ∀ key, key ∈ l ↔ ∃ d, d ≤ now ∧ deadlines key d
  ordered : l.Pairwise (Earlier deadlines)

section Due

variable {r : TimerRegistry} {key a b : TimerKey} {now d : Nat} {l l' : List TimerKey}
  {deadlines : TimerKey → Nat → Prop}

/-- No two timers come before each other. -/
theorem Earlier.asymm (hunique : ∀ key d d', deadlines key d → deadlines key d' → d = d')
    (hab : Earlier deadlines a b) : ¬ Earlier deadlines b a := by
  rintro ⟨db, da, hb, ha, hba⟩
  obtain ⟨da', db', ha', hb', hab⟩ := hab
  cases hunique a da da' ha ha'
  cases hunique b db db' hb hb'
  rcases hab with hlt | ⟨heq, hkey⟩
  · rcases hba with hlt' | ⟨heq', -⟩
    · exact Nat.lt_asymm hlt hlt'
    · exact Nat.ne_of_lt hlt heq'.symm
  · rcases hba with hlt' | ⟨-, hkey'⟩
    · exact Nat.ne_of_lt hlt' heq.symm
    · exact SortedSet.not_lt_self a (Std.TransCmp.lt_trans hkey hkey')

theorem ListsDue.nodup (hunique : ∀ key d d', deadlines key d → deadlines key d' → d = d')
    (h : ListsDue deadlines now l) : l.Nodup :=
  h.ordered.imp fun {a b} hab heq => by
    subst heq
    exact hab.asymm hunique hab

/-- There is one list of the timers that are due. -/
theorem eq_of_listsDue (hunique : ∀ key d d', deadlines key d → deadlines key d' → d = d')
    (h : ListsDue deadlines now l) (h' : ListsDue deadlines now l') : l = l' := by
  have hperm : l.Perm l' := (List.perm_ext_iff_of_nodup (h.nodup hunique) (h'.nodup hunique)).mpr
    fun key => (h.mem_iff key).trans (h'.mem_iff key).symm
  exact hperm.eq_of_pairwise (fun a b _ _ hab hba => absurd hba (hab.asymm hunique)) h.ordered
    h'.ordered

theorem listsDue_due : ListsDue (fun key d => r.get? key = some d) now (r.due now) where
  mem_iff _ := mem_due
  ordered := by
    rw [due, List.pairwise_map]
    refine (r.alarms.ascending.filter _).imp_of_mem fun {a b} ha hb hab => ?_
    exact ⟨a.deadline, b.deadline, mem_alarms.mp (List.mem_of_mem_filter ha),
      mem_alarms.mp (List.mem_of_mem_filter hb), Alarm.compare_eq_lt.mp hab⟩

/-- No deadline comes before that of the first alarm. -/
theorem least_of_alarms {first : Alarm} {rest : List Alarm}
    (hlist : r.alarms.toList = first :: rest) :
    (∃ key, r.get? key = some first.deadline) ∧
      ∀ key d, r.get? key = some d → first.deadline ≤ d := by
  have hfirst : first ∈ r.alarms.toList := hlist ▸ List.mem_cons_self ..
  refine ⟨⟨first.key, mem_alarms.mp hfirst⟩, fun key d hd => ?_⟩
  have hmem : (⟨d, key⟩ : Alarm) ∈ r.alarms.toList := mem_alarms.mpr hd
  have hascending := r.alarms.ascending
  rw [hlist] at hmem hascending
  rcases List.mem_cons.mp hmem with heq | hmem
  · exact Nat.le_of_eq (congrArg Alarm.deadline heq).symm
  · rcases Alarm.compare_eq_lt.mp (List.rel_of_pairwise_cons hascending hmem) with hlt | ⟨heq, -⟩
    · exact Nat.le_of_lt hlt
    · exact Nat.le_of_eq heq

theorem nextDeadline_eq_none_iff : r.nextDeadline = none ↔ ∀ key, r.get? key = none := by
  rw [nextDeadline, Option.map_eq_none_iff, List.head?_eq_none_iff]
  constructor
  · intro hlist key
    cases hkey : r.get? key with
    | none => rfl
    | some d =>
        have hmem : (⟨d, key⟩ : Alarm) ∈ r.alarms.toList := mem_alarms.mpr hkey
        rw [hlist] at hmem
        exact absurd hmem List.not_mem_nil
  · intro hnone
    refine List.eq_nil_iff_forall_not_mem.mpr fun a ha => ?_
    have hkey : r.get? a.key = some a.deadline := mem_alarms.mp ha
    rw [hnone] at hkey
    cases hkey

/-- The earliest deadline is one that no other comes before. -/
theorem nextDeadline_eq_some_iff :
    r.nextDeadline = some d ↔
      (∃ key, r.get? key = some d) ∧ ∀ key d', r.get? key = some d' → d ≤ d' := by
  cases hnext : r.nextDeadline with
  | none =>
      have hnone := nextDeadline_eq_none_iff.mp hnext
      simp [hnone]
  | some next =>
      rw [nextDeadline, Option.map_eq_some_iff] at hnext
      obtain ⟨first, hfirst, rfl⟩ := hnext
      obtain ⟨rest, hlist⟩ := List.head?_eq_some_iff.mp hfirst
      obtain ⟨hkey, hleast⟩ := least_of_alarms hlist
      rw [Option.some_inj]
      constructor
      · rintro rfl
        exact ⟨hkey, hleast⟩
      · rintro ⟨⟨key', hkey'⟩, hleast'⟩
        obtain ⟨key, hkey⟩ := hkey
        exact Nat.le_antisymm (hleast key' d hkey') (hleast' key _ hkey)

/-- Some timer is due once the earliest deadline has come. -/
theorem nextDeadline_le_iff : (∃ d, r.nextDeadline = some d ∧ d ≤ now) ↔ r.due now ≠ [] := by
  constructor
  · rintro ⟨d, hd, hnow⟩
    obtain ⟨⟨key, hkey⟩, -⟩ := nextDeadline_eq_some_iff.mp hd
    exact List.ne_nil_of_mem (mem_due.mpr ⟨d, hnow, hkey⟩)
  · intro hne
    obtain ⟨key, hdue⟩ := List.exists_mem_of_ne_nil _ hne
    obtain ⟨d, hd, hkey⟩ := mem_due.mp hdue
    cases hnext : r.nextDeadline with
    | none =>
        rw [nextDeadline_eq_none_iff.mp hnext key] at hkey
        cases hkey
    | some next =>
        obtain ⟨-, hleast⟩ := nextDeadline_eq_some_iff.mp hnext
        exact ⟨next, rfl, Nat.le_trans (hleast key d hkey) hd⟩

end Due

/-- **A registry is a faithful schedule of what was done to it.**  After any calls a timer is
armed exactly when the last thing that was done to it, since all were cleared, was to arm it,
and its deadline is then the moment of that plus the delay.  At every moment the timers whose
deadline has come are listed once each, by deadline and at one deadline by key, and that list
is the only one; the earliest deadline is the least, and has come exactly when some timer is
due. -/
theorem schedules_after (calls : List Call) :
    (∀ key, (after calls).contains key = true ↔ ∃ now delay, LastArmed calls key now delay) ∧
    (∀ key d, (after calls).get? key = some d ↔ Awaits calls key d) ∧
    (∀ now l, ListsDue (Awaits calls) now l ↔ l = (after calls).due now) ∧
    (∀ now, ((after calls).due now).Nodup) ∧
    (∀ d, (after calls).nextDeadline = some d ↔
      (∃ key, Awaits calls key d) ∧ ∀ key d', Awaits calls key d' → d ≤ d') ∧
    (∀ now, (∃ d, (after calls).nextDeadline = some d ∧ d ≤ now) ↔ (after calls).due now ≠ []) := by
  have hdeadlines : (fun key d => (after calls).get? key = some d) = Awaits calls :=
    funext fun key => funext fun d => propext get?_after
  have hlists : ∀ now, ListsDue (Awaits calls) now ((after calls).due now) := fun now =>
    hdeadlines ▸ listsDue_due
  have hunique : ∀ key d d', Awaits calls key d → Awaits calls key d' → d = d' := by
    intro key d d' hd hd'
    exact Option.some_inj.mp ((get?_after.mpr hd).symm.trans (get?_after.mpr hd'))
  refine ⟨fun key => ?_, fun _ _ => get?_after, fun now l => ⟨fun h => ?_, fun h => ?_⟩,
    fun _ => nodup_due, fun d => ?_, fun _ => nextDeadline_le_iff⟩
  · simp only [contains_iff, get?_after, Awaits]
    exact ⟨fun ⟨_, now, delay, h, _⟩ => ⟨now, delay, h⟩, fun ⟨now, delay, h⟩ =>
      ⟨_, now, delay, h, rfl⟩⟩
  · exact eq_of_listsDue hunique h (hlists now)
  · exact h ▸ hlists now
  · simp only [nextDeadline_eq_some_iff, get?_after]

end TimerRegistry

end Statechart
