/-
What a draft has of the state that it was drawn for.

`Sound` says of a draft what later proofs ask of it, whatever it was drawn for.  `Drawn`
compares the two: a draft has the kind and the given id of its state, and the drafts below
it have the keys of the states below that, in the order in which these are written.  It says
so of the states below too, place by place, so that a walk down the draft can be followed in
the definition.

Nothing that the walk over a definition puts in a list is ever put there twice, because a
key that a sibling has and an event that is handled already are refused.  So whatever is
listed by key in a definition that passes is listed without repetition.
-/
import Mathlib.Data.List.Nodup
import Statechart.Proofs.Tree.Draft

namespace Statechart

open Outcome

namespace DraftHandler

variable {id : String} {hs hs' : List DraftHandler}

/-- The handler of an event is put at the end, and the event had none. -/
theorem add_eq_ok {event : String} {delay : Option Nat} {transition : TransitionConfig}
    (h : add id hs event delay transition = .ok hs') :
    event ∉ hs.map DraftHandler.event ∧
      hs'.map DraftHandler.event = hs.map DraftHandler.event ++ [event] := by
  unfold add at h
  split at h
  · cases h
  rename_i hfresh
  obtain ⟨candidates, -, h⟩ := bind_eq_ok.mp h
  cases h
  refine ⟨fun hmem => hfresh ?_, by rw [List.map_append, List.map_singleton]⟩
  obtain ⟨handler, hhandler, rfl⟩ := List.mem_map.mp hmem
  exact List.any_eq_true.mpr ⟨handler, hhandler, beq_self_eq_true _⟩

/-- Steps that each put the handler of one event at the end, which had none before. -/
theorem events_foldlM {α : Type} {name : α → String}
    {step : List DraftHandler → α → Except Error (List DraftHandler)}
    (hstep : ∀ hs a hs', step hs a = .ok hs' → name a ∉ hs.map DraftHandler.event ∧
      hs'.map DraftHandler.event = hs.map DraftHandler.event ++ [name a]) {l : List α} :
    ∀ {hs hs' : List DraftHandler}, l.foldlM step hs = .ok hs' →
      (hs.map DraftHandler.event).Nodup →
        (hs'.map DraftHandler.event).Nodup ∧
          hs'.map DraftHandler.event = hs.map DraftHandler.event ++ l.map name := by
  induction l with
  | nil => intro hs hs' h hnodup; cases h; exact ⟨hnodup, by simp⟩
  | cons a rest ih =>
      intro hs hs' h hnodup
      rw [List.foldlM_cons] at h
      obtain ⟨hs₁, h₁, h⟩ := bind_eq_ok.mp h
      obtain ⟨hfresh, hevents⟩ := hstep hs a hs₁ h₁
      have hnodup₁ : (hs₁.map DraftHandler.event).Nodup := by
        rw [hevents]
        exact List.nodup_append.mpr ⟨hnodup, List.nodup_singleton _, fun e he e' he' heq =>
          hfresh (by rwa [← List.mem_singleton.mp he', ← heq])⟩
      obtain ⟨hnodup', hevents'⟩ := ih h hnodup₁
      exact ⟨hnodup', by rw [hevents', hevents, List.map_cons, List.append_assoc]; rfl⟩

/-- The event that a delay is filed under. -/
def delayedName (id delay : String) : String :=
  match Text.word? (Text.trim delay).toList with
  | some d => Event.afterName d id
  | none => ""

theorem addDelayed_eq_ok {entry : String × TransitionConfig}
    (h : addDelayed id hs entry = .ok hs') :
    delayedName id entry.1 ∉ hs.map DraftHandler.event ∧
      hs'.map DraftHandler.event = hs.map DraftHandler.event ++ [delayedName id entry.1] := by
  unfold addDelayed at h
  cases hdelay : Text.word? (Text.trim entry.1).toList with
  | none =>
      rw [hdelay] at h
      cases h
  | some d =>
      rw [hdelay] at h
      have hname : delayedName id entry.1 = Event.afterName d id := by rw [delayedName, hdelay]
      rw [hname]
      exact add_eq_ok h

/-- **No event is handled twice**, so that no event and no delay is written twice. -/
theorem ofConfig_eq_ok {c : StateConfig} (h : ofConfig id c = .ok hs) :
    (hs.map DraftHandler.event).Nodup ∧ (c.on.map Prod.fst).Nodup ∧
      (c.after.map Prod.fst).Nodup := by
  unfold ofConfig at h
  obtain ⟨hs₁, hon, h⟩ := bind_eq_ok.mp h
  obtain ⟨hs₂, hafter, h⟩ := bind_eq_ok.mp h
  obtain ⟨hnodup₁, hevents₁⟩ := events_foldlM (fun _ _ _ h => add_eq_ok h) hon List.nodup_nil
  obtain ⟨hnodup₂, hevents₂⟩ := events_foldlM (fun _ _ _ h => addDelayed_eq_ok h) hafter hnodup₁
  have hon' : (c.on.map Prod.fst).Nodup := by
    rwa [hevents₁, List.map_nil, List.nil_append] at hnodup₁
  have hafter' : (c.after.map Prod.fst).Nodup := by
    rw [hevents₂] at hnodup₂
    have hnames := (List.nodup_append.mp hnodup₂).2.1
    rw [show (fun e : String × TransitionConfig => delayedName id e.1) =
      delayedName id ∘ Prod.fst from rfl, ← List.map_map] at hnames
    exact hnames.of_map _
  refine ⟨?_, hon', hafter'⟩
  split at h
  · obtain ⟨hfresh, hevents⟩ := add_eq_ok h
    rw [hevents]
    exact List.nodup_append.mpr ⟨hnodup₂, List.nodup_singleton _, fun e he e' he' heq =>
      hfresh (by rwa [← List.mem_singleton.mp he', ← heq])⟩
  · cases h
    exact hnodup₂

end DraftHandler

namespace Draft

/-- What the walk puts down for one state. -/
structure DrawnHead (isRoot : Bool) (c : StateConfig) (d : Draft) : Prop where
  kind : d.kind = c.inferredKind
  givenId : d.givenId = givenIdOf isRoot c
  /-- Only a compound node keeps the child that it enters by itself. -/
  initial : d.initial = if d.kind = .compound then c.initial else none
  entry : d.entry = c.entry
  exit : d.exit = c.exit
  /-- The states below are drawn in the order in which they are written. -/
  keys : d.children.map Draft.key = c.states.map Prod.fst
  isKey : ∀ b ∈ d.children, IsKey b.key
  /-- What is handled is what the state declares. -/
  handlers : DraftHandler.ofConfig d.id c = .ok d.handlers
  /-- No event is handled twice. -/
  events : (d.handlers.map DraftHandler.event).Nodup
  /-- No event is written twice. -/
  on : (c.on.map Prod.fst).Nodup
  /-- No delay is written twice. -/
  after : (c.after.map Prod.fst).Nodup

/-- What the walk puts down for a state and everywhere below it. -/
inductive Drawn : Bool → StateConfig → Draft → Prop
  | mk {isRoot : Bool} {c : StateConfig} {d : Draft} (head : DrawnHead isRoot c d)
      (rest : ∀ (k : Nat) (e : String × StateConfig) (b : Draft), c.states[k]? = some e →
        d.children[k]? = some b → Drawn false e.2 b) : Drawn isRoot c d

namespace Drawn

variable {isRoot : Bool} {c : StateConfig} {d b : Draft} {k : Nat}

theorem head : Drawn isRoot c d → DrawnHead isRoot c d
  | .mk head _ => head

/-- A draft below is drawn for the state at its place, and has its key. -/
theorem exists_state (h : Drawn isRoot c d) (hb : d.children[k]? = some b) :
    ∃ s, c.states[k]? = some (b.key, s) ∧ Drawn false s b := by
  have hkey : (c.states.map Prod.fst)[k]? = some b.key := by
    rw [← h.head.keys, List.getElem?_map, hb]
    rfl
  rw [List.getElem?_map, Option.map_eq_some_iff] at hkey
  obtain ⟨⟨key, s⟩, hs, rfl⟩ := hkey
  cases h with
  | mk _ rest => exact ⟨s, hs, rest k _ b hs hb⟩

/-- For a state below there is a draft at its place, with its key. -/
theorem exists_draft (h : Drawn isRoot c d) {key : String} {s : StateConfig}
    (hs : c.states[k]? = some (key, s)) : ∃ b, d.children[k]? = some b ∧ b.key = key ∧
      Drawn false s b := by
  have hkey : (d.children.map Draft.key)[k]? = some key := by
    rw [h.head.keys, List.getElem?_map, hs]
    rfl
  rw [List.getElem?_map, Option.map_eq_some_iff] at hkey
  obtain ⟨b, hb, hkey⟩ := hkey
  cases h with
  | mk _ rest => exact ⟨b, hb, hkey, rest k _ b hs hb⟩

end Drawn

/-- The kind of a head that passes is the one that its state asks for. -/
theorem kind_of_checkHead {isRoot : Bool} {id : String} {c : StateConfig}
    {seen seen' : List String} {kind : NodeKind}
    (h : checkHead isRoot id c seen = .ok (kind, seen')) : kind = c.inferredKind := by
  obtain ⟨k, hk, h⟩ := bind_eq_ok.mp h
  have hkind : k = c.inferredKind := by
    have hchecked := refuse_eq_ok.mp hk
    unfold StateConfig.checkedKind at hchecked
    dsimp only at hchecked
    split at hchecked
    · cases hchecked
    split at hchecked
    · cases hchecked
    split at hchecked
    · cases hchecked
    split at hchecked
    · cases hchecked
    · cases hchecked
      rfl
  rw [← hkind]
  dsimp only at h
  split at h
  · cases h
  split at h
  · cases h
  obtain ⟨seen₁, -, h⟩ := bind_eq_ok.mp h
  split at h
  · cases h
    rfl
  · obtain ⟨_, -, h⟩ := bind_eq_ok.mp h
    obtain ⟨seen₂, -, h⟩ := bind_eq_ok.mp h
    cases h
    rfl

theorem initial_of_checkInitial {id : String} {kind : NodeKind} {initial checked : Option String}
    {children : List Draft} (h : checkInitial id kind initial children = .ok checked) :
    checked = if kind = .compound then initial else none := by
  unfold checkInitial at h
  by_cases hkind : kind = .compound
  · rw [if_neg (by simp [hkind])] at h
    rw [if_pos hkind]
    split at h
    · cases h
    split at h
    · cases h
    split at h
    · cases h
    · cases h
      rfl
  · rw [if_pos hkind] at h
    rw [if_neg hkind]
    cases h
    rfl

mutual

theorem drawn_of_check (isRoot : Bool) (key id : String) (seen : List String) :
    ∀ (c : StateConfig) (d : Draft) (seen' : List String),
      check isRoot key id seen c = .ok (d, seen') → Drawn isRoot c d
  | ⟨givenId, k, initial, type, parallel, history, states, on, after, onDone, entry, exit,
      context⟩, d, seen', h => by
      rw [check] at h
      obtain ⟨⟨kind, seen₁⟩, hhead, h⟩ := bind_eq_ok.mp h
      obtain ⟨handlers, hhandlers, h⟩ := bind_eq_ok.mp h
      obtain ⟨⟨children, seen₂⟩, hchildren, h⟩ := bind_eq_ok.mp h
      obtain ⟨checked, hinitial, h⟩ := bind_eq_ok.mp h
      cases h
      obtain ⟨hevents, hon, hafter⟩ := DraftHandler.ofConfig_eq_ok hhandlers
      obtain ⟨new, hnew, hkeys, hisKey, hrest⟩ :=
        drawn_of_checkChildren id [] seen₁ states children _ hchildren
      rw [List.nil_append] at hnew
      subst hnew
      exact .mk ⟨kind_of_checkHead hhead, rfl,
        initial_of_checkInitial (refuse_eq_ok.mp hinitial), rfl, rfl, hkeys, hisKey, hhandlers,
        hevents, hon, hafter⟩ hrest

theorem drawn_of_checkChildren (id : String) (before : List Draft) (seen : List String) :
    ∀ (l : List (String × StateConfig)) (ds : List Draft) (seen' : List String),
      checkChildren id before seen l = .ok (ds, seen') → ∃ new, ds = before ++ new ∧
        new.map Draft.key = l.map Prod.fst ∧ (∀ b ∈ new, IsKey b.key) ∧
          ∀ (k : Nat) (e : String × StateConfig) (b : Draft), l[k]? = some e →
            new[k]? = some b → Drawn false e.2 b
  | [], ds, seen', h => by
      rw [checkChildren] at h
      cases h
      exact ⟨[], (List.append_nil _).symm, rfl, nofun, nofun⟩
  | (key, config) :: rest, ds, seen', h => by
      rw [checkChildren] at h
      obtain ⟨_, hkey, h⟩ := bind_eq_ok.mp h
      dsimp only at h
      split at h
      · cases h
      obtain ⟨⟨d, seen₁⟩, hd, h⟩ := bind_eq_ok.mp h
      have hkey_eq := (check_eq_ok false key (id ++ "." ++ key) seen config d seen₁ hd).key_eq
      obtain ⟨new, hnew, hkeys, hisKey, hrest⟩ :=
        drawn_of_checkChildren id (before ++ [d]) seen₁ rest ds seen' h
      refine ⟨d :: new, by rw [hnew, List.append_assoc]; rfl, by simp [hkeys, hkey_eq], ?_, ?_⟩
      · intro b hb
        rcases List.mem_cons.mp hb with rfl | hb
        · rw [hkey_eq]
          exact isKey_of_checkKey hkey
        · exact hisKey b hb
      · intro k e b he hb
        cases k with
        | zero =>
            cases he
            cases hb
            exact drawn_of_check false key (id ++ "." ++ key) seen config d seen₁ hd
        | succ k => exact hrest k e b he hb

end

end Draft

end Statechart
