/-
Parts of a definition that are found again when their value is read.

A text of a definition is taken in twice: as it stands, and as the value that is kept of it.
An action, a guard, a history mode and a candidate may each be written in several ways, so
that they are read as a whole before their form is looked for, in the text with whatever it
writes twice.  `Stable` says of such a reader that it finds in the value what it found in the
text.

For objects the reason is always the same.  A reader passes over the members that it does not
know (`Heeds`), and it refuses a part that is written twice; so the members that the value has
lost were none of its own.

The other parts of a state are taken from a text by rules that are not quite those for a value,
as a text may also break off, or go too deep.  What is left to say of them is that the two
readings of a part agree.  An object of transitions is the one place where a text is taken for
a value before it is read, and a mapping by event the one where nothing but a check that comes
later refuses a key that is written twice (`mapOfRaw_again`).
-/
import Statechart.Proofs.Json.Reread

namespace Statechart

open Outcome
open Json (Raw Origin Fault Heeds Fresh Agree toRawMembers toRawItems mergeMembers)

/-- What a reader finds in a text it finds in the value of the text. -/
def Stable {α : Type} (read : Raw → Option α) : Prop :=
  ∀ (raw : Raw) (j : Json) (a : α), raw.Means j → read raw = some a → read j.toRaw = some a

theorem orNull?_of_ne_null {α : Type} {read : Raw → Option α} {raw : Raw} (h : raw ≠ .null) :
    orNull? read raw = (read raw).map some := by
  cases raw with
  | null => exact absurd rfl h
  | _ => rfl

theorem optional_of_ne_null {α : Type} {read : Raw → Except Fault α} {raw : Raw}
    (h : raw ≠ .null) : raw.optional read = (read raw).map some := by
  cases raw with
  | null => exact absurd rfl h
  | _ => rfl

theorem wanted_eq_ok {α : Type} {x : Option α} {a : α} : Json.wanted x = .ok a ↔ x = some a := by
  cases x with
  | none => constructor <;> intro h <;> cases h
  | some b => exact ⟨fun h => by cases h; rfl, fun h => by cases h; rfl⟩

namespace Stable

variable {α β : Type} {read : Raw → Option α}

theorem map (h : Stable read) (f : α → β) : Stable fun raw => (read raw).map f := by
  intro raw j b hj hb
  obtain ⟨a, ha, rfl⟩ := Option.map_eq_some_iff.mp hb
  exact Option.map_eq_some_iff.mpr ⟨a, h raw j a hj ha, rfl⟩

theorem orNull (h : Stable read) : Stable (orNull? read) := by
  intro raw j a hj ha
  by_cases hraw : raw = .null
  · subst hraw
    cases hj
    exact ha
  · rw [orNull?_of_ne_null hraw] at ha
    rw [orNull?_of_ne_null (hj.toRaw_ne_null hraw)]
    exact h.map some raw j a hj ha

end Stable

/-! ### Names -/

/-- The values at the key `type` in members that are written out. -/
theorem typeValues_toRawMembers (pairs : List (String × Json)) :
    (toRawMembers pairs).typeValues =
      (pairs.filter fun m => m.1 = "type").map fun m => m.2.toRaw := by
  induction pairs with
  | nil => rfl
  | cons m rest ih =>
      obtain ⟨k, j⟩ := m
      by_cases hk : k = "type"
      · subst hk
        simp [toRawMembers, Raw.Members.typeValues, ih]
      · rw [toRawMembers, Raw.Members.typeValues, ih, List.filter_cons_of_neg (by simpa using hk)]
        intro h
        cases h
        exact hk rfl

/-- What the values at the key `type` stand for is written at that key. -/
theorem means_typeValues {members : Raw.Members} {pairs : List (String × Json)}
    (h : members.Write pairs) : List.Forall₂ (fun raw m => raw.Means m.2) members.typeValues
      (pairs.filter fun m => m.1 = "type") := by
  cases members with
  | close =>
      cases h
      exact .nil
  | broken _ _ => cases h
  | member key value rest =>
      obtain ⟨k, j, pairs, rfl, hj, hpairs, rfl⟩ := Raw.Members.write_member.mp h
      have hrest := means_typeValues hpairs
      by_cases hk : k = "type"
      · subst hk
        rw [Raw.Members.typeValues, List.filter_cons_of_pos (by simp)]
        exact .cons hj hrest
      · rw [Raw.Members.typeValues, List.filter_cons_of_neg (by simpa using hk)]
        · exact hrest
        · intro h
          cases h
          exact hk rfl

theorem heeds_typeName? : Heeds (· = "type") Raw.Members.typeName? := by
  intro pairs
  unfold Raw.Members.typeName?
  rw [typeValues_toRawMembers, typeValues_toRawMembers, List.filter_filter]
  simp only [Bool.and_self]

/-- A name as the type of an object: whatever else is written twice, the type is not. -/
theorem typeName?_merged {members : Raw.Members} {pairs : List (String × Json)} {name : String}
    (hpairs : members.Write pairs) (h : members.typeName? = some name) :
    (toRawMembers (mergeMembers [] pairs)).typeName? = some name := by
  have hforall := means_typeValues hpairs
  unfold Raw.Members.typeName? at h
  split at h
  · rename_i hvalues
    cases h
    rw [hvalues] at hforall
    obtain ⟨m, ms, hmeans, hms, hm⟩ := List.forall₂_cons_left_iff.mp hforall
    cases List.forall₂_nil_left_iff.mp hms
    rw [heeds_typeName?.collapse (by rw [hm]; exact List.nodup_singleton _)]
    unfold Raw.Members.typeName?
    rw [typeValues_toRawMembers, hm]
    obtain ⟨k, j⟩ := m
    cases hmeans
    rfl
  · cases h

/-- The key of an object of one member that is null. -/
theorem soleKey?_merged {members : Raw.Members} {pairs : List (String × Json)} {key : String}
    (hpairs : members.Write pairs) (h : members.soleKey? = some key) :
    (toRawMembers (mergeMembers [] pairs)).soleKey? = some key := by
  unfold Raw.Members.soleKey? at h
  split at h
  · cases h
    cases hpairs
    rfl
  · cases h

/-! ### Actions, guards and history modes -/

theorem stable_text : Stable fun
    | .string (some s) => some s
    | _ => none := by
  intro raw j a hj ha
  dsimp only at ha
  split at ha
  · cases ha
    cases hj
    rfl
  · cases ha

theorem stable_actionOfRaw? : Stable actionOfRaw? := by
  intro raw j a hj ha
  unfold actionOfRaw? at ha
  split at ha
  · cases ha
    cases hj
    rfl
  · obtain ⟨pairs, hpairs, rfl⟩ := Raw.means_object.mp hj
    exact typeName?_merged hpairs ha
  · cases ha

theorem stable_guard : Stable GuardConfig.ofRaw? := by
  intro raw j a hj ha
  unfold GuardConfig.ofRaw? at ha
  split at ha
  · cases ha
    cases hj
    rfl
  · obtain ⟨pairs, hpairs, rfl⟩ := Raw.means_object.mp hj
    obtain ⟨name, hname, rfl⟩ := Option.map_eq_some_iff.mp ha
    exact Option.map_eq_some_iff.mpr ⟨name, typeName?_merged hpairs hname, rfl⟩
  · cases ha

theorem stable_history : Stable HistoryConfig.ofSound? := by
  intro raw j a hj ha
  unfold HistoryConfig.ofSound? at ha
  split at ha
  · cases ha
    cases hj
    rfl
  · cases hj
    exact ha
  · obtain ⟨pairs, hpairs, rfl⟩ := Raw.means_object.mp hj
    obtain ⟨mode, hmode, rfl⟩ := Option.map_eq_some_iff.mp ha
    obtain ⟨key, hkey, hname⟩ := Option.bind_eq_some_iff.mp hmode
    exact Option.map_eq_some_iff.mpr
      ⟨mode, Option.bind_eq_some_iff.mpr ⟨key, soleKey?_merged hpairs hkey, hname⟩, rfl⟩
  · cases ha

/-- The items of an array are found again one by one. -/
theorem mapM_toRawItems {α : Type} {read : Raw → Option α} (hread : Stable read) :
    ∀ {items : Raw.Items} {js : List Json} {as : List α}, items.Mean js →
      items.list.mapM read = some as → (toRawItems js).list.mapM read = some as
  | .close, _, _, hjs, h => by
      cases hjs
      exact h
  | .broken _, _, _, hjs, _ => by cases hjs
  | .item head rest, _, _, hmean, h => by
      obtain ⟨j, js, hj, hjs, rfl⟩ := Raw.Items.mean_item.mp hmean
      rw [Raw.Items.list, List.mapM_cons] at h
      obtain ⟨a, ha, h⟩ := Option.bind_eq_some_iff.mp h
      obtain ⟨as, has, h⟩ := Option.bind_eq_some_iff.mp h
      rw [toRawItems, Raw.Items.list, List.mapM_cons]
      exact Option.bind_eq_some_iff.mpr ⟨a, hread head j a hj ha,
        Option.bind_eq_some_iff.mpr ⟨as, mapM_toRawItems hread hjs has, h⟩⟩

theorem stable_actions : Stable actionsOfSound? := by
  intro raw j as hj h
  cases raw with
  | array items =>
      obtain ⟨js, hjs, rfl⟩ := Raw.means_array.mp hj
      exact mapM_toRawItems stable_actionOfRaw? hjs h
  | object members =>
      have hmap := stable_actionOfRaw?.map ([·]) (.object members) j as hj h
      obtain ⟨pairs, -, rfl⟩ := Raw.means_object.mp hj
      exact hmap
  | string s =>
      cases s with
      | some name =>
          cases hj
          exact h
      | none => cases h
  | _ => cases h

/-! ### Candidates -/

namespace CandidateConfig

theorem stable_read? (c : CandidateConfig) (part : CandidateField) :
    Stable (c.read? · part) := by
  cases part with
  | target => exact stable_text.orNull.map _
  | guard => exact stable_guard.orNull.map _
  | actions => exact stable_actions.map _

theorem ofMembers?_member {key : String} {value : Raw} {rest : Raw.Members}
    {c c' : CandidateConfig} {seen : List CandidateField} :
    ofMembers? c seen (.member (.text key) value rest) = some c' ↔
      (CandidateField.ofKey? key = none ∧ ofMembers? c seen rest = some c') ∨
        ∃ part c₁, CandidateField.ofKey? key = some part ∧ part ∉ seen ∧
          c.read? value part = some c₁ ∧ ofMembers? c₁ (part :: seen) rest = some c' := by
  rw [ofMembers?]
  cases CandidateField.ofKey? key with
  | none => simp
  | some part =>
      by_cases hseen : part ∈ seen
      · simp [hseen]
      · cases hread : c.read? value part <;> simp [hseen, hread]

/-- The members of a candidate are found again as they are written. -/
theorem ofMembers?_written : ∀ {members : Raw.Members} {pairs : List (String × Json)}
    {c c' : CandidateConfig} {seen : List CandidateField}, members.Write pairs →
      ofMembers? c seen members = some c' → ofMembers? c seen (toRawMembers pairs) = some c'
  | .close, _, _, _, _, hwrite, h => by
      cases hwrite
      exact h
  | .broken _ _, _, _, _, _, hwrite, _ => by cases hwrite
  | .member key value rest, _, c, _, _, hwrite, h => by
      obtain ⟨k, j, pairs, rfl, hj, hpairs, rfl⟩ := Raw.Members.write_member.mp hwrite
      refine ofMembers?_member.mpr ?_
      rcases ofMembers?_member.mp h with ⟨hk, h⟩ | ⟨part, c₁, hk, hfresh, hread, h⟩
      · exact Or.inl ⟨hk, ofMembers?_written hpairs h⟩
      · exact Or.inr ⟨part, c₁, hk, hfresh, stable_read? c part value j c₁ hj hread,
          ofMembers?_written hpairs h⟩

theorem heeds_ofMembers? (c : CandidateConfig) (seen : List CandidateField) :
    Heeds (fun key => (CandidateField.ofKey? key).isSome) (ofMembers? c seen) := by
  intro pairs
  induction pairs generalizing c seen with
  | nil => rfl
  | cons m rest ih =>
      obtain ⟨k, j⟩ := m
      cases hk : CandidateField.ofKey? k with
      | none =>
          rw [List.filter_cons_of_neg (by simp [hk]), ← ih, toRawMembers, ofMembers?, hk]
      | some part =>
          rw [List.filter_cons_of_pos (by simp [hk]), toRawMembers, toRawMembers, ofMembers?,
            ofMembers?, hk]
          simp only [ih]

theorem fresh_of_ofMembers? {pairs : List (String × Json)} : ∀ {c c' : CandidateConfig}
    {seen : List CandidateField}, ofMembers? c seen (toRawMembers pairs) = some c' →
      Fresh CandidateField.ofKey? seen pairs := by
  induction pairs with
  | nil => exact fun _ => .nil
  | cons m rest ih =>
      intro c c' seen h
      rcases ofMembers?_member.mp h with ⟨hk, h⟩ | ⟨part, c₁, hk, hfresh, -, h⟩
      · exact .other hk (ih h)
      · exact .part hk hfresh (ih h)

/-- The items of a candidate are found again. -/
theorem ofItems?_toRawItems : ∀ {items : Raw.Items} {js : List Json} {c c' : CandidateConfig}
    {parts : List CandidateField}, items.Mean js → ofItems? c parts items = some c' →
      ofItems? c parts (toRawItems js) = some c'
  | .close, _, _, _, _, hmean, h => by
      cases hmean
      exact h
  | .broken _, _, _, _, _, hmean, _ => by cases hmean
  | .item head rest, _, c, c', parts, hmean, h => by
      obtain ⟨j, js, hj, hjs, rfl⟩ := Raw.Items.mean_item.mp hmean
      cases parts with
      | nil => cases h
      | cons part parts =>
          rw [ofItems?] at h
          cases hread : c.read? head part with
          | none =>
              rw [hread] at h
              cases h
          | some c₁ =>
              rw [hread] at h
              have hagain : c.read? j.toRaw part = some c₁ :=
                stable_read? c part head j c₁ hj hread
              rw [toRawItems, ofItems?, hagain]
              exact ofItems?_toRawItems hjs h

theorem stable_ofSound? : Stable ofSound? := by
  intro raw j c hj h
  cases raw with
  | object members =>
      obtain ⟨pairs, hpairs, rfl⟩ := Raw.means_object.mp hj
      have hwritten := ofMembers?_written hpairs h
      have hfresh := fresh_of_ofMembers? hwritten
      show ofMembers? idle [] (toRawMembers (mergeMembers [] pairs)) = some c
      rw [(heeds_ofMembers? idle []).collapse hfresh.nodup_keys, hwritten]
  | array items =>
      obtain ⟨js, hjs, rfl⟩ := Raw.means_array.mp hj
      exact ofItems?_toRawItems hjs h
  | _ => cases h

/-- **A candidate of an array is found again**, whether it is a target or has parts. -/
theorem stable_ofItem? : Stable ofItem? := by
  intro raw j c hj h
  have hsound := stable_ofSound? raw j c hj
  cases raw with
  | string s =>
      cases s with
      | some target =>
          cases hj
          exact h
      | none => cases h
  | object members =>
      obtain ⟨pairs, -, rfl⟩ := Raw.means_object.mp hj
      exact hsound h
  | array items =>
      obtain ⟨js, -, rfl⟩ := Raw.means_array.mp hj
      exact hsound h
  | _ => cases h

end CandidateConfig

/-! ### Parts of one form -/

namespace Json.Agree

variable {α β : Type} {read read' : Raw → Except Fault α}

theorem optional (h : Agree read read') : Agree (Raw.optional read) (Raw.optional read') := by
  intro raw j a hj ha
  by_cases hraw : raw = .null
  · subst hraw
    cases hj
    exact ha
  · rw [optional_of_ne_null hraw] at ha
    rw [optional_of_ne_null (hj.toRaw_ne_null hraw)]
    obtain ⟨b, hb, rfl⟩ := map_eq_ok.mp ha
    exact map_eq_ok.mpr ⟨b, h raw j b hj hb, rfl⟩

theorem bind (h : Agree read read') (f : α → Except Fault β) :
    Agree (fun raw => read raw >>= f) fun raw => read' raw >>= f := by
  intro raw j b hj hb
  obtain ⟨a, ha, hb⟩ := bind_eq_ok.mp hb
  exact bind_eq_ok.mpr ⟨a, h raw j a hj ha, hb⟩

end Json.Agree

/-- What is read as a whole, and found again, agrees. -/
theorem Stable.agree {α : Type} {read : Raw → Option α} (h : Stable read) (o : Origin) :
    Agree (fun raw => raw.sound o >>= fun _ => Json.wanted (read raw))
      fun raw => raw.sound .value >>= fun _ => Json.wanted (read raw) := by
  intro raw j a hj ha
  obtain ⟨_, -, ha⟩ := bind_eq_ok.mp ha
  rw [wanted_eq_ok] at ha
  exact bind_eq_ok.mpr ⟨(), rfl, wanted_eq_ok.mpr (h raw j a hj ha)⟩

theorem agree_asString : Agree Raw.asString Raw.asString := by
  intro raw j a hj h
  unfold Raw.asString at h
  split at h
  · cases h
    cases hj
    rfl
  · cases h

theorem agree_asBool : Agree Raw.asBool Raw.asBool := by
  intro raw j a hj h
  unfold Raw.asBool at h
  split at h
  · cases h
    cases hj
    rfl
  · cases h

/-- A value that is kept is kept again. -/
theorem agree_value (o : Origin) : Agree (Raw.value o) (Raw.value .value) := by
  intro raw j a hj h
  cases hj.symm.trans (Raw.means_of_value h)
  exact Json.means_toRaw hj

theorem StateType.soleKey?_of_ofMembers {members : Raw.Members} {type : StateType}
    (h : StateType.ofMembers members = .ok type) :
    (members.soleKey? >>= StateType.ofName?) = some type := by
  unfold StateType.ofMembers at h
  split at h
  · cases h
  · cases h
  · cases h
  · cases h
  · rename_i name value rest
    obtain ⟨type', htype, h⟩ := bind_eq_ok.mp h
    cases value with
    | null =>
        cases rest with
        | close =>
            cases h
            exact wanted_eq_ok.mp htype
        | _ => cases h
    | _ => cases h

/-- A type is found again, though a text and a value are looked through in other orders. -/
theorem agree_type (o : Origin) : Agree (StateType.ofRaw o) (StateType.ofRaw .value) := by
  have hobject : ∀ {members : Raw.Members} {j : Json} {type : StateType},
      (Raw.object members).Means j → (members.soleKey? >>= StateType.ofName?) = some type →
        StateType.ofRaw .value j.toRaw = .ok type := by
    intro members j type hj h
    obtain ⟨pairs, hpairs, rfl⟩ := Raw.means_object.mp hj
    obtain ⟨key, hkey, hname⟩ := Option.bind_eq_some_iff.mp h
    exact wanted_eq_ok.mpr
      (Option.bind_eq_some_iff.mpr ⟨key, soleKey?_merged hpairs hkey, hname⟩)
  intro raw j type hj h
  cases raw with
  | string s =>
      cases s with
      | some name =>
          cases hj
          cases o <;> exact h
      | none => cases hj
  | object members =>
      cases o with
      | text levels =>
          obtain ⟨o', -, h⟩ := bind_eq_ok.mp h
          exact hobject hj (StateType.soleKey?_of_ofMembers h)
      | value => exact hobject hj (wanted_eq_ok.mp h)
  | _ => cases o <;> cases h

/-! ### Transitions -/

namespace TransitionConfig

theorem ofItems_item {o : Origin} {head : Raw} {rest : Raw.Items} {t : TransitionConfig}
    (h : ofItems o (.item head rest) = .ok t) : ∃ c t', CandidateConfig.ofItem? head = some c ∧
      ofItems o rest = .ok t' ∧ t = c :: t' := by
  rw [ofItems] at h
  obtain ⟨_, -, h⟩ := bind_eq_ok.mp h
  obtain ⟨c, hc, h⟩ := bind_eq_ok.mp h
  obtain ⟨t', ht', h⟩ := bind_eq_ok.mp h
  cases h
  exact ⟨c, t', wanted_eq_ok.mp hc, ht', rfl⟩

theorem ofItems_toRawItems {o : Origin} : ∀ {items : Raw.Items} {js : List Json}
    {t : TransitionConfig}, items.Mean js → ofItems o items = .ok t →
      ofItems .value (toRawItems js) = .ok t
  | .close, _, _, hmean, h => by
      cases hmean
      cases h
      rfl
  | .broken _, _, _, hmean, _ => by cases hmean
  | .item head rest, _, _, hmean, h => by
      obtain ⟨j, js, hj, hjs, rfl⟩ := Raw.Items.mean_item.mp hmean
      obtain ⟨c, t, hc, ht, rfl⟩ := ofItems_item h
      have hc' := CandidateConfig.stable_ofItem? head j c hj hc
      have ht' := ofItems_toRawItems hjs ht
      rw [toRawItems, ofItems, wanted_eq_ok.mpr hc', ht']
      rfl

theorem agree_ofRaw (o : Origin) : Agree (ofRaw o) (ofRaw .value) := by
  intro raw j t hj h
  cases raw with
  | null =>
      cases hj
      exact h
  | string s =>
      cases s with
      | some target =>
          cases hj
          exact h
      | none => cases h
  | array items =>
      obtain ⟨js, hjs, rfl⟩ := Raw.means_array.mp hj
      obtain ⟨o', -, h⟩ := bind_eq_ok.mp h
      exact ofItems_toRawItems hjs h
  | object members =>
      obtain ⟨o', -, h⟩ := bind_eq_ok.mp h
      obtain ⟨ms, hms, h⟩ := bind_eq_ok.mp h
      obtain ⟨pairs, hpairs, hmerge⟩ := Raw.Members.values_eq_ok.mp hms
      have hobject : (Raw.object members).Means (.object ms) :=
        Raw.means_object.mpr ⟨pairs, Raw.Members.write_of_entries hpairs, by rw [hmerge]⟩
      -- the members are merged before they are read, and so they are in the value
      cases hj.symm.trans hobject
      exact bind_eq_ok.mpr ⟨.value, rfl, bind_eq_ok.mpr ⟨ms, Json.values_toRawMembers hj, h⟩⟩
  | _ => cases h

/-- Transitions by event are found again, unless an event is written twice. -/
theorem mapOfRaw_again {o : Origin} {raw : Raw} {j : Json}
    {entries : List (String × TransitionConfig)} (hj : raw.Means j)
    (h : mapOfRaw o raw = .ok entries) (hkeys : (entries.map Prod.fst).Nodup) :
    mapOfRaw .value j.toRaw = .ok entries := by
  cases raw with
  | object members =>
      obtain ⟨pairs, hpairs, rfl⟩ := Raw.means_object.mp hj
      obtain ⟨o', -, h⟩ := bind_eq_ok.mp h
      obtain ⟨hentries, heq⟩ := (agree_ofRaw o').entries hpairs h
      rw [heq] at hkeys
      rw [Json.mergeMembers_nil_of_nodup hkeys]
      exact hentries
  | _ => cases h

end TransitionConfig

end Statechart
