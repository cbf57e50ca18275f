/-
What one step of a call gives and skips.

A channel keeps a tail of all that was ever sent, and a reader stands somewhere in that whole.
So where a receiver stands before and after a step can be compared with what it returned in the
step: `wanted` is what lies between two places and passes the filter.  A step returns nothing
else (`Accounts.sublist`), all of it unless the receiver fell behind or is not subscribed any
more (`Accounts.complete`), and nothing at all in the latter case (`Accounts.silent`).

There is one exception.  A call that does not wait does not look again once it has looked, so
that its next read is handed out although the subscription may be gone by then
(`Listener.isBlind`).  With that read the call looks again or is over (`Accounts.once`).

A snapshot that a waiting call has taken is not settled before the call has looked for its
subscription again, so that the place of a receiver is counted without it (`Listener.settled`).
-/
import Mathlib.Data.List.Basic
import Statechart.Service.Audience

namespace Statechart

/-! ### A channel among all that was sent -/

namespace Channel

variable {α : Type} {c : Channel α} {all : List α} {p : Nat}

/-- All that was ever sent, and the channel keeps the end of it. -/
structure Carries (c : Channel α) (all : List α) : Prop where
  sent : c.sent = all.length
  kept : c.kept = all.drop c.oldest

theorem carries_ofCapacity (n : Nat) : (ofCapacity n : Channel α).Carries [] := ⟨rfl, rfl⟩

theorem Carries.send (h : c.Carries all) (a : α) : (c.send a).Carries (all ++ [a]) := by
  have hlength : c.kept.length ≤ all.length := by
    rw [c.kept_length, h.sent]
    exact Nat.min_le_left ..
  have hsent : (c.send a).sent = (all ++ [a]).length := by
    rw [List.length_append, ← h.sent]
    rfl
  have holdest : c.oldest = all.length - c.kept.length := by rw [oldest, h.sent]
  have hwhole : c.kept ++ [a] = (all ++ [a]).drop c.oldest := by
    rw [List.drop_append_of_le_length (by omega), ← h.kept]
  have hoverflow : c.oldest + (c.kept.length + 1 - c.capacity) = (c.send a).oldest := by
    have hnew : (c.send a).oldest = c.sent + 1 - min (c.sent + 1) c.capacity := by
      rw [oldest, (c.send a).kept_length]
      rfl
    have hkept := c.kept_length
    rw [hnew, h.sent]
    rw [h.sent] at hkept
    omega
  refine ⟨hsent, ?_⟩
  rw [← hoverflow, ← List.drop_drop, ← hwhole]
  rfl

theorem Carries.unread (h : c.Carries all) : c.unread p = all.drop (c.position p) := by
  have hle : c.oldest ≤ c.position p := Nat.le_max_right ..
  rw [Channel.unread, h.kept, List.drop_drop, Nat.add_sub_cancel' hle]

theorem Carries.oldest_le (h : c.Carries all) : c.oldest ≤ all.length := by
  rw [oldest, h.sent]
  exact Nat.sub_le ..

theorem position_of_oldest_le (h : c.oldest ≤ p) : c.position p = p := Nat.max_eq_left h

/-- What a reader finds, and where it stands after that. -/
theorem Carries.read_cases (h : c.Carries all) (p : Nat) :
    p < c.oldest ∧ c.read p = (.lagged, c.oldest) ∨
      (∃ a, all[p]? = some a ∧ c.read p = (.message a, p + 1)) ∨ c.read p = (.empty, p) := by
  unfold read
  by_cases hbehind : p < c.oldest
  · rw [if_pos hbehind]
    exact Or.inl ⟨hbehind, rfl⟩
  · rw [if_neg hbehind, h.unread, position_of_oldest_le (Nat.le_of_not_lt hbehind)]
    cases hrest : all.drop p with
    | nil => exact Or.inr (Or.inr rfl)
    | cons a rest =>
        refine Or.inr (Or.inl ⟨a, ?_, rfl⟩)
        rw [← List.head?_drop, hrest]
        rfl

/-- A reader that is behind by no more than the capacity has missed nothing. -/
theorem oldest_le_of_behind (h : c.sent - p ≤ c.capacity) : c.oldest ≤ p := by
  rw [oldest, c.kept_length]
  omega

end Channel

/-! ### What lies between two places -/

variable {f : SnapshotFilter} {all later : List Snapshot} {p q r n : Nat} {s : Snapshot}

/-- What lies between two places of all that was sent and passes a filter. -/
def wanted (f : SnapshotFilter) (all : List Snapshot) (p q : Nat) : List Snapshot :=
  ((all.drop p).take (q - p)).filter f.accepts

@[simp] theorem wanted_self : wanted f all p p = [] := by simp [wanted]

theorem wanted_append (hpq : p ≤ q) (hqr : q ≤ r) :
    wanted f all p q ++ wanted f all q r = wanted f all p r := by
  have hlength : r - p = (q - p) + (r - q) := by omega
  rw [wanted, wanted, wanted, hlength, List.take_add, List.drop_drop, Nat.add_sub_cancel' hpq,
    List.filter_append]

theorem wanted_succ (h : all[p]? = some s) :
    wanted f all p (p + 1) = if f.accepts s then [s] else [] := by
  obtain ⟨hp, rfl⟩ := List.getElem?_eq_some_iff.mp h
  rw [wanted, List.drop_eq_getElem_cons hp, Nat.add_sub_cancel_left, List.take_succ_cons,
    List.take_zero, List.filter_cons, List.filter_nil]

theorem wanted_prefix : wanted f all p q <+: (all.drop p).filter f.accepts :=
  (List.take_prefix ..).filter _

/-- What is sent later does not change what was sent. -/
theorem wanted_concat (hq : q ≤ all.length) : wanted f (all ++ later) p q = wanted f all p q := by
  rw [wanted, wanted]
  by_cases hpq : p ≤ q
  · rw [List.drop_append_of_le_length (Nat.le_trans hpq hq), List.take_append_of_le_length (by
      rw [List.length_drop]
      omega)]
  · rw [Nat.sub_eq_zero_of_le (by omega), List.take_zero, List.take_zero]

/-! ### One step -/

namespace Listener

variable {l l' : Listener} {b : Broadcaster}

/-- How many snapshots came before the next one that is not settled. -/
def settled (l : Listener) : Nat :=
  match l.call with
  | .holds _ => l.receiver.position - 1
  | _ => l.receiver.position

/-- A receiver of a subscription stands among all that was sent, and what it holds was sent right
before the place where it stands. -/
structure Fits (l : Listener) (n : Nat) (f : SnapshotFilter) (all : List Snapshot) : Prop where
  subscription : l.receiver.subscription = n
  filter : l.receiver.filter = f
  position : l.receiver.position ≤ all.length
  held : ∀ s, l.call = .holds s → ∃ k, l.receiver.position = k + 1 ∧ all[k]? = some s

theorem settled_le (l : Listener) : l.settled ≤ l.receiver.position := by
  unfold settled
  split
  · exact Nat.sub_le ..
  · exact Nat.le_refl _

theorem Fits.append (h : l.Fits n f all) (later : List Snapshot) : l.Fits n f (all ++ later) := by
  refine ⟨h.subscription, h.filter, ?_, fun s hs => ?_⟩
  · rw [List.length_append]
    exact Nat.le_add_right_of_le h.position
  · obtain ⟨k, hposition, hk⟩ := h.held s hs
    have hlt := (List.getElem?_eq_some_iff.mp hk).1
    exact ⟨k, hposition, (List.getElem?_append_left hlt).trans hk⟩

/-- The call has looked for its subscription, and will not look again before it hands out what it
reads. -/
def isBlind (l : Listener) : Bool :=
  match l.call with
  | .reads waits => !waits
  | _ => false

/-- There is no call, or one that waits. -/
def isPatient (l : Listener) : Bool :=
  match l.call with
  | .asks waits | .reads waits => waits
  | .idle | .holds _ => true

/-- What a step returns, measured by where the receiver stands before and after it. -/
structure Accounts (b : Broadcaster) (n : Nat) (f : SnapshotFilter) (all : List Snapshot)
    (l l' : Listener) (told : List Snapshot) : Prop where
  fits : l'.Fits n f all
  forward : l.settled ≤ l'.settled
  sublist : told.Sublist (wanted f all l.settled l'.settled)
  complete : b.isActive n = true ∨ l.isBlind = true → b.channel.oldest ≤ l.receiver.position →
    told = wanted f all l.settled l'.settled
  silent : b.isActive n = false → l.isBlind = false → told = []
  /-- A call is blind only if its subscription was there when it looked. -/
  blind : l'.isBlind = true → b.isActive n = true ∨ l.isBlind = true
  once : told = [] ∨ ∃ s, told = [s] ∧ l'.isBlind = false

/-- A step that settles nothing returns nothing. -/
theorem accounts_of_settled (hfits : l'.Fits n f all) (hsettled : l'.settled = l.settled)
    (hblind : l'.isBlind = true → b.isActive n = true ∨ l.isBlind = true) :
    Accounts b n f all l l' [] := by
  refine ⟨hfits, Nat.le_of_eq hsettled.symm, List.nil_sublist _, fun _ _ => ?_, fun _ _ => rfl,
    hblind, Or.inl rfl⟩
  rw [hsettled, wanted_self]

/-- A step that settles a snapshot returns it if it passes the filter, and if it was still to be
handed out. -/
theorem accounts_of_taken {told : List Snapshot} (hnext : all[l.settled]? = some s)
    (hfits : l'.Fits n f all) (hsettled : l'.settled = l.settled + 1) (hblind : l'.isBlind = false)
    (htold : told = if f.accepts s && (b.isActive n || l.isBlind) then [s] else []) :
    Accounts b n f all l l' told := by
  have hwanted : wanted f all l.settled l'.settled = if f.accepts s then [s] else [] := by
    rw [hsettled, wanted_succ hnext]
  refine ⟨hfits, ?_, ?_, fun hcan _ => ?_, fun hgone hlooks => ?_, fun h => ?_, ?_⟩
  · rw [hsettled]
    exact Nat.le_succ _
  · rw [hwanted, htold]
    cases f.accepts s with
    | false => exact List.Sublist.refl _
    | true =>
        cases b.isActive n || l.isBlind with
        | false => exact List.nil_sublist _
        | true => exact List.Sublist.refl _
  · rw [hwanted, htold, Bool.or_eq_true_iff.mpr hcan, Bool.and_true]
  · rw [htold, hgone, hlooks, Bool.or_false, Bool.and_false, if_neg Bool.false_ne_true]
  · rw [hblind] at h
    cases h
  · rw [htold]
    split
    · exact Or.inr ⟨s, rfl, hblind⟩
    · exact Or.inl rfl

/-- A receiver that is in no call, or in one that holds nothing. -/
theorem fits_of_free {r : Receiver} {call : Call} (hr : r.subscription = n ∧ r.filter = f)
    (hposition : r.position ≤ all.length) (hfree : ∀ s, call ≠ .holds s) :
    Listener.Fits ⟨r, call⟩ n f all :=
  ⟨hr.1, hr.2, hposition, fun s h => absurd h (hfree s)⟩

theorem settled_of_free (hfree : ∀ s, l.call ≠ .holds s) : l.settled = l.receiver.position := by
  unfold settled
  split
  · rename_i s hcall
    exact absurd hcall (hfree s)
  · rfl

/-- A call that holds nothing and goes over into another one settles nothing. -/
theorem accounts_of_free {call : Call} (hl : l.Fits n f all) (hfree : ∀ s, l.call ≠ .holds s)
    (hfree' : ∀ s, call ≠ .holds s)
    (hblind : isBlind { l with call } = true → b.isActive n = true ∨ l.isBlind = true) :
    Accounts b n f all l { l with call } [] :=
  accounts_of_settled (fits_of_free ⟨hl.subscription, hl.filter⟩ hl.position hfree')
    ((settled_of_free hfree').trans (settled_of_free hfree).symm) hblind

/-- A snapshot that is handed out is settled by that. -/
theorem accounts_of_handOut {r : Receiver} {call : Call} {waits : Bool}
    (hnext : all[l.settled]? = some s) (hr : r.subscription = n ∧ r.filter = f)
    (hposition : r.position = l.settled + 1) (hcan : b.isActive n = true ∨ l.isBlind = true) :
    Accounts b n f all l (handOut ⟨r, call⟩ waits s).1
      (handOut ⟨r, call⟩ waits s).2.join.toList := by
  have hle : r.position ≤ all.length := hposition ▸ (List.getElem?_eq_some_iff.mp hnext).1
  have hfits {call : Call} (hfree : ∀ s, call ≠ .holds s) : Fits ⟨r, call⟩ n f all :=
    fits_of_free hr hle hfree
  have hcan' : (b.isActive n || l.isBlind) = true := Bool.or_eq_true_iff.mpr hcan
  unfold handOut
  rw [hr.2]
  by_cases haccepts : f.accepts s = true
  · rw [if_pos haccepts]
    exact accounts_of_taken hnext (hfits nofun) hposition rfl
      (by rw [haccepts, hcan']; rfl)
  · rw [if_neg haccepts]
    exact accounts_of_taken hnext (hfits nofun) hposition rfl
      (by rw [Bool.eq_false_iff.mpr haccepts]; rfl)

/-- The read of a call. -/
theorem accounts_of_reads {waits : Bool} (hb : b.channel.Carries all) (hl : l.Fits n f all)
    (hcall : l.call = .reads waits) :
    Accounts b n f all l (l.advance b).1 (l.advance b).2.join.toList := by
  have hfree : ∀ s, l.call ≠ .holds s := by simp [hcall]
  have hbefore : l.settled = l.receiver.position := settled_of_free hfree
  have hown : l.receiver.subscription = n ∧ l.receiver.filter = f := ⟨hl.subscription, hl.filter⟩
  obtain ⟨hbehind, hread⟩ | ⟨s, hnext, hread⟩ | hread := hb.read_cases l.receiver.position
  · -- a receiver that fell behind goes on at the oldest snapshot that is kept
    simp only [advance, hcall, hread]
    refine ⟨fits_of_free hown hb.oldest_le nofun, ?_, List.nil_sublist _, fun _ hle => ?_,
      fun _ _ => rfl, nofun, Or.inl rfl⟩
    · rw [hbefore]
      exact Nat.le_of_lt hbehind
    · exact absurd hbehind (Nat.not_lt.mpr hle)
  · simp only [advance, hcall, hread]
    cases waits with
    | true =>
        have hlt := (List.getElem?_eq_some_iff.mp hnext).1
        refine accounts_of_settled ⟨hl.subscription, hl.filter, hlt, ?_⟩ hbefore.symm nofun
        rintro _ ⟨⟩
        exact ⟨l.receiver.position, rfl, hnext⟩
    | false =>
        have hblind : l.isBlind = true := by simp only [isBlind, hcall, Bool.not_false]
        exact accounts_of_handOut (hbefore ▸ hnext) hown (by rw [hbefore]) (Or.inr hblind)
  · simp only [advance, hcall, hread]
    cases waits with
    | true => exact accounts_of_settled hl rfl Or.inr
    | false => exact accounts_of_free hl hfree nofun nofun

/-- The last step of a call that holds a snapshot. -/
theorem accounts_of_holds (hl : l.Fits n f all) (hcall : l.call = .holds s) :
    Accounts b n f all l (l.advance b).1 (l.advance b).2.join.toList := by
  obtain ⟨k, hposition, hk⟩ := hl.held s hcall
  have hbefore : l.settled = k := by rw [settled, hcall, hposition, Nat.add_sub_cancel]
  have hown : l.receiver.subscription = n ∧ l.receiver.filter = f := ⟨hl.subscription, hl.filter⟩
  have hsettled : l.receiver.position = l.settled + 1 := by rw [hbefore, hposition]
  rw [← hbefore] at hk
  simp only [advance, hcall, hl.subscription]
  by_cases hactive : b.isActive n = true
  · rw [if_pos hactive]
    exact accounts_of_handOut hk hown hsettled (Or.inl hactive)
  · rw [if_neg hactive]
    have hblind : l.isBlind = false := by simp only [isBlind, hcall]
    exact accounts_of_taken hk (fits_of_free hown hl.position nofun) hsettled rfl
      (by rw [Bool.eq_false_iff.mpr hactive, hblind, Bool.or_false, Bool.and_false]; rfl)

/-- **What a step of a call gives and skips.** -/
theorem accounts_advance (hb : b.channel.Carries all) (hl : l.Fits n f all) :
    Accounts b n f all l (l.advance b).1 (l.advance b).2.join.toList := by
  cases hcall : l.call with
  | idle =>
      simp only [advance, hcall]
      exact accounts_of_settled hl rfl Or.inr
  | asks waits =>
      have hfree : ∀ s, l.call ≠ .holds s := by simp [hcall]
      simp only [advance, hcall, finish, hl.subscription]
      by_cases hactive : b.isActive n = true
      · simp only [if_pos hactive]
        exact accounts_of_free hl hfree nofun fun _ => Or.inl hactive
      · simp only [if_neg hactive]
        exact accounts_of_free hl hfree nofun nofun
  | reads waits => exact accounts_of_reads hb hl hcall
  | holds s => exact accounts_of_holds hl hcall

/-- **What the owner of a receiver gets and misses by what it does.** -/
theorem accounts_act (hb : b.channel.Carries all) (hl : l.Fits n f all) (x : Act) :
    Accounts b n f all l (l.act b x).1 (l.act b x).2.join.toList := by
  obtain ⟨r, call⟩ := l
  cases x with
  | advance => exact accounts_advance hb hl
  | tryReceive | receive =>
      cases call with
      | idle => exact accounts_of_free hl nofun nofun nofun
      | asks _ | reads _ | holds _ => exact accounts_of_settled hl rfl Or.inr
  | cancel =>
      cases call with
      | reads waits =>
          cases waits with
          | true => exact accounts_of_free hl nofun nofun nofun
          | false => exact accounts_of_settled hl rfl Or.inr
      | idle | asks _ | holds _ => exact accounts_of_settled hl rfl Or.inr

/-! ### A call that waits -/

theorem isBlind_of_isPatient (h : l.isPatient = true) : l.isBlind = false := by
  unfold isPatient at h
  unfold isBlind
  split
  · rename_i waits hcall
    rw [hcall] at h
    obtain rfl : waits = true := h
    rfl
  · rfl

/-- A call that waits does not go over into one that does not. -/
theorem isPatient_advance (h : l.isPatient = true) : (l.advance b).1.isPatient = true := by
  unfold isPatient at h
  unfold advance
  split
  · rename_i hcall
    simp only [isPatient, hcall]
  · rename_i waits hcall
    rw [hcall] at h
    obtain rfl : waits = true := h
    split <;> rfl
  · rename_i waits hcall
    rw [hcall] at h
    obtain rfl : waits = true := h
    split
    · rfl
    · rfl
    · simp only [if_true, isPatient, hcall]
  · unfold handOut
    repeat' split
    all_goals rfl

theorem isPatient_act {x : Act} (hx : x ≠ .tryReceive) (h : l.isPatient = true) :
    (l.act b x).1.isPatient = true := by
  obtain ⟨r, call⟩ := l
  cases x with
  | tryReceive => exact absurd rfl hx
  | advance => exact isPatient_advance h
  | receive =>
      cases call with
      | idle => rfl
      | asks _ | reads _ | holds _ => exact h
  | cancel =>
      cases call with
      | reads waits =>
          obtain rfl : waits = true := h
          rfl
      | idle | asks _ | holds _ => exact h

end Listener

end Statechart
