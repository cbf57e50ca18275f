/-
What a subscriber sees of all that is published.

To one subscription a move of anybody is one of four things (`sees_step`): it does not matter, it
publishes a snapshot, it drops the receiver, or the owner of the receiver does something.  What
is kept by all four is `Follows`: the receiver stands among all that was sent, and what it
returned was sent since it subscribed, passed its filter and is in order.  While it keeps up and
is subscribed it returned all of that up to where it stands.

When its subscription is gone it returns nothing any more, unless it is blind: in a call that has
looked for the subscription before and is about to read.  That call still hands out what it reads,
even what was published when the subscription was gone already
(`exists_returned_of_removed`).  It is the last snapshot that is returned, and as the receiver
read it where it stood, what it returned stays the first part of what was sent.
-/
import Mathlib.Data.List.Infix
import Statechart.Proofs.Service.Calls

namespace Statechart

namespace Broadcaster

variable {b : Broadcaster} {n k : Nat} {f : SnapshotFilter}

theorem isActive_unsubscribe :
    (b.unsubscribe k).isActive n = true ↔ k ≠ n ∧ b.isActive n = true := by
  unfold isActive unsubscribe SortedMap.contains
  dsimp only
  rw [SortedMap.get?_erase]
  split
  · rename_i heq
    simp [heq]
  · rename_i hne
    simp [hne]

theorem isActive_subscribe :
    (b.subscribe f).1.isActive n = true ↔ n = b.issued ∨ b.isActive n = true := by
  unfold isActive subscribe SortedMap.contains
  dsimp only
  rw [SortedMap.get?_insert]
  split
  · rename_i heq
    simp [heq]
  · rename_i hne
    simp [Ne.symm hne]

end Broadcaster

/-- The snapshots that are published in the course of moves. -/
def Move.published (moves : List Move) : List Snapshot :=
  moves.filterMap fun
    | .publish s => some s
    | _ => none

/-- Whether a move removes a subscription. -/
def Move.removes (n : Nat) : Move → Bool
  | .unsubscribe k | .drop k => k == n
  | _ => false

namespace Audience

variable {a a' : Audience} {n origin : Nat} {f : SnapshotFilter}
  {all published told told' : List Snapshot} {m : Move} {moves : List Move} {kept : Prop}

/-- Whether a subscription is there. -/
def isActive (a : Audience) (n : Nat) : Bool := a.broadcaster.isActive n

/-- Whether a receiver will hand out what it reads without a look at its subscription. -/
def isBlind (a : Audience) (n : Nat) : Bool := (a.listeners.get? n).any Listener.isBlind

/-- How many snapshots were published that a receiver has not looked at. -/
def behind (a : Audience) (n : Nat) : Nat :=
  match a.listeners.get? n with
  | some l => a.broadcaster.channel.sent - l.receiver.position
  | none => 0

/-- A receiver is behind by no more than the channel keeps. -/
def KeepsUp (a : Audience) (n : Nat) : Prop := a.behind n ≤ a.broadcaster.channel.capacity

instance (a : Audience) (n : Nat) : Decidable (a.KeepsUp n) :=
  inferInstanceAs (Decidable (a.behind n ≤ a.broadcaster.channel.capacity))

/-! ### What a move is to a subscription -/

/-- What a move is to a subscription, with what it publishes and what the receiver returns. -/
inductive Sees (n : Nat) (a a' : Audience) : (published told : List Snapshot) → Prop
  /-- It does not matter, or it removes the subscription. -/
  | apart (channel : a'.broadcaster.channel = a.broadcaster.channel)
      (listener : a'.listeners.get? n = a.listeners.get? n)
      (active : a'.isActive n = true → a.isActive n = true) : Sees n a a' [] []
  /-- It publishes a snapshot. -/
  | published (s : Snapshot) (channel : a'.broadcaster.channel = a.broadcaster.channel.send s)
      (listener : a'.listeners.get? n = a.listeners.get? n)
      (active : a'.isActive n = a.isActive n) : Sees n a a' [s] []
  /-- It drops the receiver. -/
  | dropped (channel : a'.broadcaster.channel = a.broadcaster.channel)
      (listener : a'.listeners.get? n = none) (active : a'.isActive n = false) : Sees n a a' [] []
  /-- The owner of the receiver does something. -/
  | acts (x : Act) (l : Listener) (broadcaster : a'.broadcaster = a.broadcaster)
      (before : a.listeners.get? n = some l)
      (after : a'.listeners.get? n = some (l.act a.broadcaster x).1) :
      Sees n a a' [] (l.act a.broadcaster x).2.join.toList

theorem step_act {l : Listener} {k : Nat} (x : Act) (h : a.listeners.get? k = some l) :
    a.step (.act k x) = ({ a with listeners := a.listeners.insert k (l.act a.broadcaster x).1 },
      (l.act a.broadcaster x).2.map (k, ·)) := by
  simp only [step, h]

theorem step_act_none {k : Nat} (x : Act) (h : a.listeners.get? k = none) :
    a.step (.act k x) = (a, none) := by
  simp only [step, h]

/-- The answer to a call of a receiver is given to it. -/
theorem given_own {answer : Option (Option Snapshot)} :
    given n (answer.map (n, ·)) = answer.join.toList := by
  rcases answer with _ | _ | s
  · rfl
  · rfl
  · exact if_pos rfl

/-- Numbers of subscriptions are not given again. -/
theorem issued_step : a.broadcaster.issued ≤ (a.step m).1.broadcaster.issued := by
  cases m with
  | subscribe filter => exact Nat.le_succ _
  | publish s => exact Nat.le_refl _
  | unsubscribe k => exact Nat.le_refl _
  | drop k => exact Nat.le_refl _
  | act k x =>
      cases hl : a.listeners.get? k with
      | none => exact Nat.le_of_eq (congrArg (·.1.broadcaster.issued) (step_act_none x hl).symm)
      | some l => exact Nat.le_of_eq (congrArg (·.1.broadcaster.issued) (step_act x hl).symm)

/-- **What a move is to a subscription.** -/
theorem sees_step (hn : n < a.broadcaster.issued) (m : Move) :
    Sees n a (a.step m).1 (Move.published [m]) (given n (a.step m).2) := by
  cases m with
  | subscribe filter =>
      have hne : n ≠ a.broadcaster.issued := Nat.ne_of_lt hn
      refine .apart rfl ?_ fun hactive => ?_
      · exact SortedMap.get?_insert.trans (if_neg hne.symm)
      · exact (Broadcaster.isActive_subscribe.mp hactive).resolve_left hne
  | publish s => exact .published s rfl rfl rfl
  | unsubscribe k =>
      exact .apart rfl rfl fun hactive => (Broadcaster.isActive_unsubscribe.mp hactive).2
  | drop k =>
      by_cases hk : k = n
      · subst hk
        refine .dropped rfl (SortedMap.get?_erase.trans (if_pos rfl)) ?_
        exact Bool.eq_false_iff.mpr fun hactive =>
          (Broadcaster.isActive_unsubscribe.mp hactive).1 rfl
      · refine .apart rfl (SortedMap.get?_erase.trans (if_neg hk)) fun hactive => ?_
        exact (Broadcaster.isActive_unsubscribe.mp hactive).2
  | act k x =>
      cases hl : a.listeners.get? k with
      | none =>
          rw [step_act_none x hl]
          exact .apart rfl rfl id
      | some l =>
          rw [step_act x hl]
          by_cases hk : k = n
          · subst hk
            rw [given_own]
            exact .acts x l rfl hl (SortedMap.get?_insert.trans (if_pos rfl))
          · have hgiven : given n ((l.act a.broadcaster x).2.map (k, ·)) = [] := by
              rcases (l.act a.broadcaster x).2 with _ | _ | s
              · rfl
              · rfl
              · exact if_neg hk
            rw [hgiven]
            exact .apart rfl (SortedMap.get?_insert.trans (if_neg hk)) id

/-! ### What every move keeps -/

/-- A receiver follows all that was sent from an origin on, and returned some of it.  Under a
condition what it returned is the first part of that, and all of it up to where it stands while
it is subscribed or blind. -/
structure Follows (n : Nat) (f : SnapshotFilter) (origin : Nat) (kept : Prop) (a : Audience)
    (all told : List Snapshot) : Prop where
  carries : a.broadcaster.channel.Carries all
  issued : n < a.broadcaster.issued
  known : origin ≤ all.length
  fits : ∀ l, a.listeners.get? n = some l →
    l.Fits n f all ∧ origin ≤ l.settled ∧ told.Sublist (wanted f all origin l.settled)
  ordered : told.Sublist ((all.drop origin).filter f.accepts)
  first : kept → told <+: (all.drop origin).filter f.accepts
  complete : kept → ∀ l, a.listeners.get? n = some l →
    a.isActive n = true ∨ l.isBlind = true → told = wanted f all origin l.settled

/-- A subscriber that keeps up finds all that it has not looked at. -/
theorem oldest_le_of_keepsUp {l : Listener} (h : a.KeepsUp n) (hl : a.listeners.get? n = some l) :
    a.broadcaster.channel.oldest ≤ l.receiver.position := by
  rw [KeepsUp, behind, hl] at h
  exact Channel.oldest_le_of_behind h

/-- A subscription that is gone stays gone. -/
theorem Sees.gone (hsees : Sees n a a' published told') (hgone : a.isActive n = false) :
    a'.isActive n = false := by
  cases hsees with
  | apart _ _ hactive =>
      exact Bool.eq_false_iff.mpr fun hback => Bool.eq_false_iff.mp hgone (hactive hback)
  | published s _ _ hactive => exact hactive.trans hgone
  | dropped _ _ hactive => exact hactive
  | acts x l hbroadcaster _ _ =>
      rw [isActive, hbroadcaster]
      exact hgone

/-- Where the subscription is gone a receiver that is not blind returns nothing, and does not
become blind. -/
theorem Follows.silent (h : Follows n f origin kept a all told)
    (hsees : Sees n a a' published told') (hgone : a.isActive n = false)
    (hlooks : a.isBlind n = false) : a'.isBlind n = false ∧ told' = [] := by
  cases hsees with
  | apart _ hlistener _ | published _ _ hlistener _ =>
      rw [isBlind, hlistener]
      exact ⟨hlooks, rfl⟩
  | dropped _ hlistener _ =>
      rw [isBlind, hlistener]
      exact ⟨rfl, rfl⟩
  | acts x l _ hbefore hafter =>
      have haccounts := Listener.accounts_act h.carries (h.fits l hbefore).1 x
      rw [isBlind, hbefore, Option.any_some] at hlooks
      rw [isBlind, hafter, Option.any_some]
      refine ⟨Bool.eq_false_iff.mpr fun hblind => ?_, haccounts.silent hgone hlooks⟩
      rcases haccounts.blind hblind with hactive | hblind
      · exact Bool.eq_false_iff.mp hgone hactive
      · exact Bool.eq_false_iff.mp hlooks hblind

/-- A move has a receiver return one snapshot at most, and a receiver that does so is not blind. -/
theorem Follows.once (h : Follows n f origin kept a all told)
    (hsees : Sees n a a' published told') :
    told' = [] ∨ ∃ s, told' = [s] ∧ a'.isBlind n = false := by
  cases hsees with
  | apart | published | dropped => exact Or.inl rfl
  | acts x l _ hbefore hafter =>
      have haccounts := Listener.accounts_act h.carries (h.fits l hbefore).1 x
      rw [isBlind, hafter, Option.any_some]
      exact haccounts.once

/-- What its owner does with a receiver keeps it. -/
theorem Follows.acts {x : Act} {l : Listener} (h : Follows n f origin kept a all told)
    (hbroadcaster : a'.broadcaster = a.broadcaster) (hbefore : a.listeners.get? n = some l)
    (hafter : a'.listeners.get? n = some (l.act a.broadcaster x).1) :
    Follows n f origin (kept ∧ a.KeepsUp n) a' all
      (told ++ (l.act a.broadcaster x).2.join.toList) := by
  obtain ⟨hfits, hbase, htold⟩ := h.fits l hbefore
  have haccounts := Listener.accounts_act h.carries hfits x
  have hsublist := htold.append haccounts.sublist
  rw [wanted_append hbase haccounts.forward] at hsublist
  have hwhole (hk : kept ∧ a.KeepsUp n) (hcan : a.isActive n = true ∨ l.isBlind = true) :
      told ++ (l.act a.broadcaster x).2.join.toList =
        wanted f all origin (l.act a.broadcaster x).1.settled := by
    rw [← wanted_append hbase haccounts.forward, ← h.complete hk.1 l hbefore hcan,
      ← haccounts.complete hcan (oldest_le_of_keepsUp hk.2 hbefore)]
  refine ⟨hbroadcaster ▸ h.carries, hbroadcaster ▸ h.issued, h.known, fun l' hl' => ?_,
    hsublist.trans wanted_prefix.sublist, fun hk => ?_, fun hk l' hl' hcan => ?_⟩
  · rw [hafter] at hl'
    cases hl'
    exact ⟨haccounts.fits, Nat.le_trans hbase haccounts.forward, hsublist⟩
  · by_cases hcan : a.isActive n = true ∨ l.isBlind = true
    · rw [hwhole hk hcan]
      exact wanted_prefix
    · obtain ⟨hgone, hlooks⟩ := not_or.mp hcan
      rw [haccounts.silent (Bool.eq_false_iff.mpr hgone) (Bool.eq_false_iff.mpr hlooks),
        List.append_nil]
      exact h.first hk.1
  · rw [hafter] at hl'
    cases hl'
    rw [isActive, hbroadcaster] at hcan
    exact hwhole hk (hcan.elim Or.inl haccounts.blind)

/-- **Every move keeps it.** -/
theorem Follows.step (h : Follows n f origin kept a all told)
    (hsees : Sees n a a' published told')
    (hissued : a.broadcaster.issued ≤ a'.broadcaster.issued) :
    Follows n f origin (kept ∧ a.KeepsUp n) a' (all ++ published) (told ++ told') := by
  have hissued' := Nat.lt_of_lt_of_le h.issued hissued
  cases hsees with
  | apart hchannel hlistener hactive =>
      rw [List.append_nil, List.append_nil]
      refine ⟨hchannel ▸ h.carries, hissued', h.known, hlistener ▸ h.fits, h.ordered,
        fun hk => h.first hk.1, fun hk l hl hcan => ?_⟩
      exact h.complete hk.1 l (hlistener ▸ hl) (hcan.imp_left hactive)
  | published s hchannel hlistener hactive =>
      rw [List.append_nil]
      have hgrows : (all.drop origin).filter f.accepts <+:
          ((all ++ [s]).drop origin).filter f.accepts := by
        rw [List.drop_append_of_le_length h.known]
        exact (List.prefix_append ..).filter _
      have hsame {l : Listener} (hl : l.Fits n f all) :
          wanted f (all ++ [s]) origin l.settled = wanted f all origin l.settled :=
        wanted_concat (Nat.le_trans l.settled_le hl.position)
      refine ⟨hchannel ▸ h.carries.send s, hissued', ?_, fun l hl => ?_,
        h.ordered.trans hgrows.sublist, fun hk => (h.first hk.1).trans hgrows,
        fun hk l hl hcan => ?_⟩
      · rw [List.length_append]
        exact Nat.le_add_right_of_le h.known
      · obtain ⟨hfits, hbase, htold⟩ := h.fits l (hlistener ▸ hl)
        exact ⟨hfits.append [s], hbase, (hsame hfits).symm ▸ htold⟩
      · rw [hlistener] at hl
        rw [hsame (h.fits l hl).1]
        exact h.complete hk.1 l hl (hactive ▸ hcan)
  | dropped hchannel hlistener hactive =>
      rw [List.append_nil, List.append_nil]
      refine ⟨hchannel ▸ h.carries, hissued', h.known, fun l hl => ?_, h.ordered,
        fun hk => h.first hk.1, fun _ l hl => ?_⟩
      · rw [hlistener] at hl
        cases hl
      · rw [hlistener] at hl
        cases hl
  | acts x l hbroadcaster hbefore hafter =>
      rw [List.append_nil]
      exact h.acts hbroadcaster hbefore hafter

theorem Follows.mono {kept' : Prop} (h : Follows n f origin kept a all told) (hk : kept' → kept) :
    Follows n f origin kept' a all told :=
  ⟨h.carries, h.issued, h.known, h.fits, h.ordered, fun h' => h.first (hk h'),
    fun h' => h.complete (hk h')⟩

/-! ### A course of moves -/

theorem published_cons (m : Move) (moves : List Move) :
    Move.published (m :: moves) = Move.published [m] ++ Move.published moves :=
  List.filterMap_append (l := [m])

theorem returned_append (p q : List Move) :
    a.returned n (p ++ q) = a.returned n p ++ (a.after p).returned n q := by
  induction p generalizing a with
  | nil => rfl
  | cons m rest ih =>
      rw [List.cons_append, returned, returned, ih, List.append_assoc]
      rfl

/-- **What a receiver follows it follows in any course of moves.** -/
theorem Follows.after (h : Follows n f origin kept a all told) (moves : List Move) :
    Follows n f origin (kept ∧ ∀ p, p <+: moves → (a.after p).KeepsUp n) (a.after moves)
      (all ++ Move.published moves) (told ++ a.returned n moves) := by
  induction moves generalizing a kept all told with
  | nil =>
      rw [returned, List.append_nil]
      have hall : all ++ Move.published [] = all := List.append_nil all
      rw [hall]
      exact h.mono And.left
  | cons m rest ih =>
      have hrest := ih (h.step (sees_step h.issued m) issued_step)
      rw [published_cons, returned, ← List.append_assoc, ← List.append_assoc]
      refine hrest.mono fun ⟨hkept, hkeeps⟩ => ⟨⟨hkept, ?_⟩, fun p hp => ?_⟩
      · exact hkeeps [] List.nil_prefix
      · exact hkeeps (m :: p) (List.cons_prefix_cons.mpr ⟨rfl, hp⟩)

/-- A subscription that is gone stays gone in any course of moves. -/
theorem gone_after (hn : n < a.broadcaster.issued) (hgone : a.isActive n = false)
    (moves : List Move) : (a.after moves).isActive n = false := by
  induction moves generalizing a with
  | nil => exact hgone
  | cons m rest ih =>
      exact ih (Nat.lt_of_lt_of_le hn issued_step) ((sees_step hn m).gone hgone)

/-- From when a subscription is gone on its receiver returns nothing, if it is not blind. -/
theorem Follows.silent_after (h : Follows n f origin kept a all told)
    (hgone : a.isActive n = false) (hlooks : a.isBlind n = false) (moves : List Move) :
    a.returned n moves = [] := by
  induction moves generalizing a kept all told with
  | nil => rfl
  | cons m rest ih =>
      have hsees := sees_step h.issued m
      obtain ⟨hlooks', hgiven⟩ := h.silent hsees hgone hlooks
      rw [returned, hgiven, ih (h.step hsees issued_step) (hsees.gone hgone) hlooks']
      rfl

/-- From when a subscription is gone on its receiver returns one snapshot at most. -/
theorem Follows.once_after (h : Follows n f origin kept a all told)
    (hgone : a.isActive n = false) (moves : List Move) :
    ∃ last : Option Snapshot, a.returned n moves = last.toList := by
  induction moves generalizing a kept all told with
  | nil => exact ⟨none, rfl⟩
  | cons m rest ih =>
      have hsees := sees_step h.issued m
      have hnext := h.step hsees issued_step
      rw [returned]
      rcases h.once hsees with hgiven | ⟨s, hgiven, hlooks⟩
      · rw [hgiven]
        exact ih hnext (hsees.gone hgone)
      · rw [hgiven, hnext.silent_after (hsees.gone hgone) hlooks]
        exact ⟨some s, rfl⟩

theorem isActive_of_removes (h : m.removes n = true) : (a.step m).1.isActive n = false := by
  refine Bool.eq_false_iff.mpr fun hactive => ?_
  cases m with
  | unsubscribe k | drop k =>
      exact (Broadcaster.isActive_unsubscribe.mp hactive).1 (beq_iff_eq.mp h)
  | subscribe _ | publish _ | act _ _ => cases h

/-- A subscription that some move removes is gone after that. -/
theorem gone_of_removes (hn : n < a.broadcaster.issued)
    (hremoved : ∃ m ∈ moves, m.removes n = true) : (a.after moves).isActive n = false := by
  induction moves generalizing a with
  | nil =>
      obtain ⟨_, hm, _⟩ := hremoved
      cases hm
  | cons m rest ih =>
      have hn' := Nat.lt_of_lt_of_le hn (issued_step (m := m))
      obtain ⟨m', hm', hremoves⟩ := hremoved
      rcases List.mem_cons.mp hm' with rfl | hm'
      · exact gone_after hn' (isActive_of_removes hremoves) rest
      · exact ih hn' ⟨m', hm', hremoves⟩

/-! ### A receiver that only waits -/

/-- A receiver is in no call but one that waits. -/
def Waits (a : Audience) (n : Nat) : Prop :=
  ∀ l, a.listeners.get? n = some l → l.isPatient = true

theorem Waits.isBlind (h : a.Waits n) : a.isBlind n = false := by
  rw [Audience.isBlind]
  cases hl : a.listeners.get? n with
  | none => rfl
  | some l => exact Listener.isBlind_of_isPatient (h l hl)

theorem Waits.step (h : a.Waits n) (hn : n < a.broadcaster.issued)
    (hm : m ≠ .act n .tryReceive) : (a.step m).1.Waits n := by
  intro l hl
  cases m with
  | subscribe filter =>
      exact h l ((SortedMap.get?_insert.trans (if_neg (Nat.ne_of_gt hn))).symm.trans hl)
  | publish s => exact h l hl
  | unsubscribe k => exact h l hl
  | drop k =>
      have herased : (a.listeners.erase k).get? n = some l := hl
      rw [SortedMap.get?_erase] at herased
      split at herased
      · cases herased
      · exact h l herased
  | act k x =>
      cases hbefore : a.listeners.get? k with
      | none =>
          rw [step_act_none x hbefore] at hl
          exact h l hl
      | some before =>
          rw [step_act x hbefore] at hl
          dsimp only at hl
          rw [SortedMap.get?_insert] at hl
          split at hl
          · rename_i hk
            subst hk
            cases hl
            exact Listener.isPatient_act (fun hx => hm (hx ▸ rfl)) (h before hbefore)
          · exact h l hl

theorem Waits.after (h : a.Waits n) (hn : n < a.broadcaster.issued)
    (hwaits : ∀ m ∈ moves, m ≠ .act n .tryReceive) : (a.after moves).Waits n := by
  induction moves generalizing a with
  | nil => exact h
  | cons m rest ih =>
      obtain ⟨hm, hrest⟩ := List.forall_mem_cons.mp hwaits
      exact ih (h.step hn hm) (Nat.lt_of_lt_of_le hn issued_step) hrest

/-! ### From the subscription on -/

theorem carries_step (h : a.broadcaster.channel.Carries all) (m : Move) :
    (a.step m).1.broadcaster.channel.Carries (all ++ Move.published [m]) := by
  have hsame : a.broadcaster.channel.Carries (all ++ []) := by rwa [List.append_nil]
  cases m with
  | publish s => exact h.send s
  | subscribe _ | unsubscribe _ | drop _ => exact hsame
  | act k x =>
      cases hl : a.listeners.get? k with
      | none =>
          rw [step_act_none x hl]
          exact hsame
      | some l =>
          rw [step_act x hl]
          exact hsame

theorem carries_after (h : a.broadcaster.channel.Carries all) (moves : List Move) :
    (a.after moves).broadcaster.channel.Carries (all ++ Move.published moves) := by
  induction moves generalizing a all with
  | nil =>
      have hall : all ++ Move.published [] = all := List.append_nil all
      rwa [hall]
  | cons m rest ih =>
      rw [published_cons, ← List.append_assoc]
      exact ih (carries_step h m)

theorem get?_subscribe (a : Audience) (f : SnapshotFilter) :
    (a.step (.subscribe f)).1.listeners.get? a.broadcaster.issued =
      some ⟨⟨a.broadcaster.issued, f, a.broadcaster.channel.sent⟩, .idle⟩ :=
  SortedMap.get?_insert.trans (if_pos rfl)

theorem waits_subscribe (a : Audience) (f : SnapshotFilter) :
    (a.step (.subscribe f)).1.Waits a.broadcaster.issued := by
  intro l hl
  rw [get?_subscribe] at hl
  cases hl
  rfl

/-- A receiver that has just subscribed follows what is sent from now on. -/
theorem follows_subscribe (h : a.broadcaster.channel.Carries all) (f : SnapshotFilter) :
    Follows a.broadcaster.issued f all.length True (a.step (.subscribe f)).1 all [] := by
  refine ⟨h, Nat.lt_succ_self _, Nat.le_refl _, fun l hl => ?_, List.nil_sublist _,
    fun _ => List.nil_prefix, fun _ l hl _ => ?_⟩
  · rw [get?_subscribe] at hl
    cases hl
    exact ⟨⟨rfl, rfl, Nat.le_of_eq h.sent, nofun⟩, Nat.le_of_eq h.sent.symm, List.nil_sublist _⟩
  · rw [get?_subscribe] at hl
    cases hl
    have hsettled : Listener.settled ⟨⟨a.broadcaster.issued, f, a.broadcaster.channel.sent⟩, .idle⟩ =
        all.length := h.sent
    rw [hsettled, wanted_self]

/-- A receiver has just subscribed, after whatever moves. -/
inductive Subscribed (capacity : Nat) (f : SnapshotFilter) : Audience → Nat → Prop
  | after (before : List Move) {a : Audience} (reached : a = (ofCapacity capacity).after before) :
      Subscribed capacity f (a.step (.subscribe f)).1 a.broadcaster.issued

/-- **What a subscriber receives.**  In any course of moves after it subscribed the snapshots that
a receiver returns are some of those that are published in it and pass its filter, in order and
each once.  When its subscription has been removed it returns one more at most, and none if it
was not blind then, which it never is if it only ever waits.  As long as it keeps up it skips
none: what it returned is the first part of them. -/
theorem stream_of_subscribed {capacity : Nat} (h : Subscribed capacity f a n) (moves : List Move) :
    (a.returned n moves).Sublist ((Move.published moves).filter f.accepts) ∧
    (∀ p q, moves = p ++ q → (∃ m ∈ p, m.removes n = true) →
      (∃ last : Option Snapshot, a.returned n moves = a.returned n p ++ last.toList) ∧
      ((a.after p).isBlind n = false → a.returned n moves = a.returned n p) ∧
      ((∀ m ∈ p, m ≠ .act n .tryReceive) → (a.after p).isBlind n = false)) ∧
    ((∀ p, p <+: moves → (a.after p).KeepsUp n) →
      a.returned n moves <+: (Move.published moves).filter f.accepts) := by
  obtain ⟨before, rfl⟩ := h
  have hstart := follows_subscribe
    (carries_after (a := ofCapacity capacity) (Channel.carries_ofCapacity capacity) before) f
  have hfollows := hstart.after moves
  rw [List.nil_append] at hfollows
  have hsince (l : List Snapshot) : (l ++ Move.published moves).drop l.length =
      Move.published moves := List.drop_left
  refine ⟨?_, ?_, fun hkeeps => ?_⟩
  · have hordered := hfollows.ordered
    rwa [hsince] at hordered
  · rintro p q rfl hremoved
    have hgone := gone_of_removes hstart.issued hremoved
    rw [returned_append]
    refine ⟨?_, fun hlooks => ?_, fun hwaits => ?_⟩
    · obtain ⟨last, hlast⟩ := (hstart.after p).once_after hgone q
      exact ⟨last, by rw [hlast]⟩
    · rw [(hstart.after p).silent_after hgone hlooks q, List.append_nil]
    · exact ((waits_subscribe _ f).after hstart.issued hwaits).isBlind
  · have hfirst := hfollows.first ⟨trivial, hkeeps⟩
    rwa [hsince] at hfirst

/-- A snapshot of a machine that ticks. -/
def tick (sequence : Nat) (cause : Cause) : Snapshot where
  sequence
  machine := "m"
  checksum := ""
  cause
  state :=
    { value := .leaf "a", context := .null, actions := [], event := Event.named "TICK"
      changed := true, done := false, history := .empty, timers := [] }
  activeIds := []
  nextEvents := []

/-- Only what timers lead to. -/
def timersOnly : SnapshotFilter := ⟨[.timer], [], false⟩

/-- The second of two subscribers waits while the first one leaves, and then takes what is there,
until it is removed itself. -/
def tickCourse : List Move :=
  [.act 1 .receive, .act 1 .advance, .publish (tick 1 .timer), .act 1 .advance, .unsubscribe 0,
    .act 1 .advance, .publish (tick 2 .event), .publish (tick 3 .timer), .act 1 .tryReceive,
    .act 1 .advance, .act 1 .advance, .act 1 .advance, .act 1 .advance, .unsubscribe 1]

/-- Another snapshot comes, and is looked for in vain. -/
def lateCourse : List Move :=
  [.publish (tick 4 .timer), .act 1 .tryReceive, .act 1 .advance, .act 1 .advance]

/-- The second subscriber receives the snapshots of timers that were published before it was
removed, and none after that. -/
theorem stream_of_subscribed_tickCourse : ∃ a, Subscribed 2 timersOnly a 1 ∧
    (a.returned 1 tickCourse).map Snapshot.sequence = [1, 3] ∧
    a.returned 1 tickCourse <+: (Move.published tickCourse).filter timersOnly.accepts ∧
    a.returned 1 (tickCourse ++ lateCourse) = a.returned 1 tickCourse := by
  have hsubscribed : Subscribed 2 timersOnly _ 1 := .after [.subscribe .everything] rfl
  refine ⟨_, hsubscribed, by decide +kernel, ?_, ?_⟩
  · refine (stream_of_subscribed hsubscribed tickCourse).2.2 fun p hp => ?_
    have hkeeps : ∀ p ∈ tickCourse.inits, ((((ofCapacity 2).after [.subscribe .everything]).step
        (.subscribe timersOnly)).1.after p).KeepsUp 1 := by decide +kernel
    exact hkeeps p ((List.mem_inits p tickCourse).mpr hp)
  · obtain ⟨-, hremoved, -⟩ := stream_of_subscribed hsubscribed (tickCourse ++ lateCourse)
    obtain ⟨-, hsilent, -⟩ :=
      hremoved tickCourse lateCourse rfl (List.any_eq_true.mp (by decide +kernel))
    exact hsilent (by decide +kernel)

/-- A subscriber looks whether its subscription is there, and then it is removed. -/
def blindCourse : List Move :=
  [.act 0 .tryReceive, .act 0 .advance, .unsubscribe 0]

/-- A snapshot that is published only when the subscription has been removed is returned. -/
theorem exists_returned_of_removed : ∃ a, Subscribed 2 .everything a 0 ∧
    (∃ m ∈ blindCourse, m.removes 0 = true) ∧
    (a.returned 0 (blindCourse ++ [.publish (tick 1 .event), .act 0 .advance])).map
      Snapshot.sequence = [1] :=
  ⟨_, .after [] rfl, List.any_eq_true.mp (by decide +kernel), by decide +kernel⟩

end Audience

end Statechart
