/-
The ways to write a transition.

A transition is written as a target, as an object with its parts, as an array of such, or as a
mapping from targets to objects with the other parts; and a part may be written in several
ways itself.  What a value spells is said here without reading it: which values stand at the
keys of a part, and what each of them may be (`Spells`).  A reader finds the candidate that is
spelled, whatever else stands between its parts and in whatever order, and finds one nowhere
else (`ofSound?_eq_some_iff`).  So every form of a transition gives the candidates that it
spells (`decodes_alike`).

A text that nests too deep stands for no value.  Any other text of a form is decoded to what
its value is decoded to (`Decodes`).
-/
import Statechart.Proofs.Definition.Parts

namespace Statechart

open Outcome
open Json (Raw Origin toRawMembers toRawItems)

variable {j : Json} {members rest : List (String × Json)} {target : String}

/-! ### Values that are written out -/

namespace Json

mutual

/-- Every value can be written out. -/
theorem exists_means_toRaw : ∀ j : Json, ∃ j', j.toRaw.Means j'
  | .null => ⟨.null, rfl⟩
  | .bool b => ⟨.bool b, rfl⟩
  | .number n => ⟨.number n, rfl⟩
  | .string s => ⟨.string s, rfl⟩
  | .array items => by
      obtain ⟨js, hjs⟩ := exists_mean_toRawItems items
      exact ⟨.array js, Raw.means_array.mpr ⟨js, hjs, rfl⟩⟩
  | .object members => by
      obtain ⟨pairs, hpairs⟩ := exists_write_toRawMembers members
      exact ⟨_, Raw.means_object.mpr ⟨pairs, hpairs, rfl⟩⟩

theorem exists_mean_toRawItems : ∀ items : List Json, ∃ js, (toRawItems items).Mean js
  | [] => ⟨[], rfl⟩
  | item :: rest => by
      obtain ⟨j, hj⟩ := exists_means_toRaw item
      obtain ⟨js, hjs⟩ := exists_mean_toRawItems rest
      exact ⟨j :: js, Raw.Items.mean_item.mpr ⟨j, js, hj, hjs, rfl⟩⟩

theorem exists_write_toRawMembers :
    ∀ members : List (String × Json), ∃ pairs, (toRawMembers members).Write pairs
  | [] => ⟨[], rfl⟩
  | (k, value) :: rest => by
      obtain ⟨j, hj⟩ := exists_means_toRaw value
      obtain ⟨pairs, hpairs⟩ := exists_write_toRawMembers rest
      exact ⟨(k, j) :: pairs, Raw.Members.write_member.mpr ⟨k, j, pairs, rfl, hj, hpairs, rfl⟩⟩

end

end Json

/-! ### Actions and guards -/

/-- The values at a key. -/
def valuesAt (key : String) (members : List (String × Json)) : List Json :=
  (members.filter fun m => m.1 = key).map Prod.snd

/-- A value that spells an action: its name, or an object of that type. -/
inductive SpellsAction : Json → Action → Prop
  | name (a : Action) : SpellsAction (.string a) a
  | typed {members : List (String × Json)} {a : Action}
      (type : valuesAt "type" members = [.string a]) : SpellsAction (.object members) a

/-- A value that spells actions: one, or an array of them. -/
inductive SpellsActions : Json → List Action → Prop
  | one {j : Json} {a : Action} (action : SpellsAction j a) : SpellsActions j [a]
  | many {items : List Json} {actions : List Action}
      (spelled : List.Forall₂ SpellsAction items actions) : SpellsActions (.array items) actions

/-- A value that spells a guard: its text, or an object whose type is its name. -/
inductive SpellsGuard : Json → GuardConfig → Prop
  | text (text : String) : SpellsGuard (.string text) (.source text)
  | typed {members : List (String × Json)} {name : String}
      (type : valuesAt "type" members = [.string name]) :
      SpellsGuard (.object members) (.named name)

theorem toRaw_eq_string {s : String} : j.toRaw = .string (some s) ↔ j = .string s := by
  cases j <;> simp [Json.toRaw]

theorem typeName?_toRawMembers {name : String} :
    (toRawMembers members).typeName? = some name ↔ valuesAt "type" members = [.string name] := by
  have hvalues : (toRawMembers members).typeValues = (valuesAt "type" members).map Json.toRaw := by
    rw [typeValues_toRawMembers, valuesAt, List.map_map]
    rfl
  rw [Raw.Members.typeName?, hvalues]
  constructor
  · intro h
    split at h
    · rename_i hsingle
      cases h
      obtain ⟨j, hj, hname⟩ := List.map_eq_singleton_iff.mp hsingle
      rw [hj, toRaw_eq_string.mp hname]
    · cases h
  · intro h
    rw [h]
    rfl

theorem actionOfRaw?_toRaw {a : Action} : actionOfRaw? j.toRaw = some a ↔ SpellsAction j a := by
  constructor
  · intro h
    cases j with
    | string s =>
        cases h
        exact .name _
    | object members => exact .typed (typeName?_toRawMembers.mp h)
    | _ => cases h
  · rintro (_ | type)
    · rfl
    · exact typeName?_toRawMembers.mpr type

theorem mapM_actions {items : List Json} {actions : List Action} :
    (toRawItems items).list.mapM actionOfRaw? = some actions ↔
      List.Forall₂ SpellsAction items actions := by
  induction items generalizing actions with
  | nil =>
      rw [List.forall₂_nil_left_iff]
      exact Option.some_inj.trans eq_comm
  | cons item items ih =>
      rw [toRawItems, Raw.Items.list, List.mapM_cons, List.forall₂_cons_left_iff]
      constructor
      · intro h
        obtain ⟨a, ha, h⟩ := Option.bind_eq_some_iff.mp h
        obtain ⟨as, has, h⟩ := Option.bind_eq_some_iff.mp h
        cases h
        exact ⟨a, as, actionOfRaw?_toRaw.mp ha, ih.mp has, rfl⟩
      · rintro ⟨a, as, ha, has, rfl⟩
        rw [actionOfRaw?_toRaw.mpr ha, ih.mpr has]
        rfl

theorem actionsOfSound?_toRaw {actions : List Action} :
    actionsOfSound? j.toRaw = some actions ↔ SpellsActions j actions := by
  have hone : (actionOfRaw? j.toRaw).map ([·]) = some actions ↔
      ∃ a, SpellsAction j a ∧ actions = [a] := by
    simp only [Option.map_eq_some_iff, actionOfRaw?_toRaw, eq_comm (a := actions)]
  cases j with
  | array items =>
      show (toRawItems items).list.mapM actionOfRaw? = some actions ↔ _
      rw [mapM_actions]
      exact ⟨.many, fun h => by
        cases h with
        | one action => cases action
        | many spelled => exact spelled⟩
  | _ =>
      refine hone.trans ⟨fun ⟨a, ha, heq⟩ => heq ▸ .one ha, fun h => ?_⟩
      cases h with
      | one action => exact ⟨_, action, rfl⟩

theorem guardOfRaw?_toRaw {g : GuardConfig} :
    GuardConfig.ofRaw? j.toRaw = some g ↔ SpellsGuard j g := by
  constructor
  · intro h
    cases j with
    | string s =>
        cases h
        exact .text _
    | object members =>
        obtain ⟨name, hname, rfl⟩ := Option.map_eq_some_iff.mp h
        exact .typed (typeName?_toRawMembers.mp hname)
    | _ => cases h
  · rintro (_ | type)
    · rfl
    · exact Option.map_eq_some_iff.mpr ⟨_, typeName?_toRawMembers.mpr type, rfl⟩

/-! ### Candidates -/

/-- The values that members give a part of a candidate. -/
def CandidateField.valuesIn (part : CandidateField) (members : List (String × Json)) : List Json :=
  (members.filter fun m => CandidateField.ofKey? m.1 = some part).map Prod.snd

namespace CandidateConfig

/-- Values that spell a part of a candidate: none or null for a part that is left out, or one
that spells it. -/
inductive SpellsPart (c : CandidateConfig) : CandidateField → List Json → Prop
  | noTarget (part : c.target = none) : SpellsPart c .target []
  | nullTarget (part : c.target = none) : SpellsPart c .target [.null]
  | target {t : String} (part : c.target = some t) : SpellsPart c .target [.string t]
  | noGuard (part : c.guard = none) : SpellsPart c .guard []
  | nullGuard (part : c.guard = none) : SpellsPart c .guard [.null]
  | guard {j : Json} {g : GuardConfig} (part : c.guard = some g) (guard : SpellsGuard j g) :
      SpellsPart c .guard [j]
  | noActions (part : c.actions = []) : SpellsPart c .actions []
  | actions {j : Json} (actions : SpellsActions j c.actions) : SpellsPart c .actions [j]

/-- Members that spell a candidate: each part once, or not at all. -/
def Spells (members : List (String × Json)) (c : CandidateConfig) : Prop :=
  ∀ part : CandidateField, SpellsPart c part (part.valuesIn members)

/-- Two candidates have a part in common. -/
def Share (c c' : CandidateConfig) : CandidateField → Prop
  | .target => c.target = c'.target
  | .guard => c.guard = c'.guard
  | .actions => c.actions = c'.actions

/-- A candidate with one part of another. -/
def withPart (c₀ c : CandidateConfig) : CandidateField → CandidateConfig
  | .target => { c₀ with target := c.target }
  | .guard => { c₀ with guard := c.guard }
  | .actions => { c₀ with actions := c.actions }

variable {c c₀ : CandidateConfig} {part part' : CandidateField} {seen : List CandidateField}
  {cs : TransitionConfig}

theorem share_withPart : Share (c₀.withPart c part) c part := by
  cases part <;> rfl

theorem share_withPart_of_ne (h : part' ≠ part) : Share (c₀.withPart c part) c₀ part' := by
  cases part <;> cases part' <;> first | exact absurd rfl h | rfl

theorem Share.trans {c₁ : CandidateConfig} (h : Share c₁ c₀ part) (h' : Share c₀ c part) :
    Share c₁ c part := by
  cases part <;> exact Eq.trans h h'

theorem eq_of_share (h : ∀ part, Share c₀ c part) : c₀ = c := by
  have htarget : c₀.target = c.target := h .target
  have hguard : c₀.guard = c.guard := h .guard
  have hactions : c₀.actions = c.actions := h .actions
  cases c₀
  cases c
  simp_all

theorem Share.symm (h : Share c₀ c part) : Share c c₀ part := by
  cases part <;> exact Eq.symm h

theorem withPart_congr {c₁ : CandidateConfig} (h : Share c₁ c part) :
    c₀.withPart c₁ part = c₀.withPart c part := by
  cases part with
  | target => exact congrArg (fun target => { c₀ with target }) h
  | guard => exact congrArg (fun guard => { c₀ with guard }) h
  | actions => exact congrArg (fun actions => { c₀ with actions }) h

/-- A part that is not written is that of a candidate that does nothing. -/
theorem spellsPart_nil : SpellsPart c part [] ↔ Share idle c part := by
  constructor
  · intro h
    cases h <;> exact Eq.symm ‹_›
  · intro h
    cases part
    · exact .noTarget (Eq.symm h)
    · exact .noGuard (Eq.symm h)
    · exact .noActions (Eq.symm h)

theorem SpellsPart.tail_eq_nil {values : List Json} (h : SpellsPart c part (j :: values)) :
    values = [] := by
  cases h <;> rfl

theorem SpellsPart.congr {c₁ : CandidateConfig} {values : List Json}
    (h : SpellsPart c₁ part values) (hshare : Share c₁ c part) : SpellsPart c part values := by
  cases h with
  | noTarget hpart => exact .noTarget (Eq.trans (Eq.symm hshare) hpart)
  | nullTarget hpart => exact .nullTarget (Eq.trans (Eq.symm hshare) hpart)
  | target hpart => exact .target (Eq.trans (Eq.symm hshare) hpart)
  | noGuard hpart => exact .noGuard (Eq.trans (Eq.symm hshare) hpart)
  | nullGuard hpart => exact .nullGuard (Eq.trans (Eq.symm hshare) hpart)
  | guard hpart hguard => exact .guard (Eq.trans (Eq.symm hshare) hpart) hguard
  | noActions hpart => exact .noActions (Eq.trans (Eq.symm hshare) hpart)
  | actions hactions =>
      have heq : c₁.actions = c.actions := hshare
      exact .actions (heq ▸ hactions)

theorem textOrNull?_toRaw {t : Option String} : textOrNull? j.toRaw = some t ↔
    j = .null ∧ t = none ∨ ∃ s, j = .string s ∧ t = some s := by
  cases j <;> simp [textOrNull?, orNull?, Json.toRaw, eq_comm]

theorem guardOrNull?_toRaw {g : Option GuardConfig} :
    orNull? GuardConfig.ofRaw? j.toRaw = some g ↔
      j = .null ∧ g = none ∨ ∃ g', SpellsGuard j g' ∧ g = some g' := by
  by_cases hj : j = .null
  · subst hj
    constructor
    · intro h
      cases h
      exact Or.inl ⟨rfl, rfl⟩
    · rintro (⟨-, rfl⟩ | ⟨g', hg', -⟩)
      · rfl
      · cases hg'
  · have hraw : j.toRaw ≠ .null := by cases j <;> simp_all [Json.toRaw]
    simp only [orNull?_of_ne_null hraw, Option.map_eq_some_iff, guardOfRaw?_toRaw, hj, false_and,
      false_or, eq_comm (a := g)]

/-- A part that is written is read, and no other part changes by that. -/
theorem read?_toRaw {c₁ : CandidateConfig} : c₀.read? j.toRaw part = some c₁ ↔
    SpellsPart c₁ part [j] ∧ c₁ = c₀.withPart c₁ part := by
  cases part with
  | target =>
      rw [read?, Option.map_eq_some_iff]
      constructor
      · rintro ⟨t, ht, rfl⟩
        refine ⟨?_, rfl⟩
        rcases textOrNull?_toRaw.mp ht with ⟨rfl, rfl⟩ | ⟨s, rfl, rfl⟩
        · exact .nullTarget rfl
        · exact .target rfl
      · rintro ⟨h, heq⟩
        refine ⟨c₁.target, textOrNull?_toRaw.mpr ?_, heq.symm⟩
        cases h with
        | nullTarget hpart => exact Or.inl ⟨rfl, hpart⟩
        | target hpart => exact Or.inr ⟨_, rfl, hpart⟩
  | guard =>
      rw [read?, Option.map_eq_some_iff]
      constructor
      · rintro ⟨g, hg, rfl⟩
        refine ⟨?_, rfl⟩
        rcases guardOrNull?_toRaw.mp hg with ⟨rfl, rfl⟩ | ⟨g', hg', rfl⟩
        · exact .nullGuard rfl
        · exact .guard rfl hg'
      · rintro ⟨h, heq⟩
        refine ⟨c₁.guard, guardOrNull?_toRaw.mpr ?_, heq.symm⟩
        cases h with
        | nullGuard hpart => exact Or.inl ⟨rfl, hpart⟩
        | guard hpart hguard => exact Or.inr ⟨_, hguard, hpart⟩
  | actions =>
      rw [read?, Option.map_eq_some_iff]
      constructor
      · rintro ⟨actions, hactions, rfl⟩
        exact ⟨.actions (actionsOfSound?_toRaw.mp hactions), rfl⟩
      · rintro ⟨h, heq⟩
        refine ⟨c₁.actions, actionsOfSound?_toRaw.mpr ?_, heq.symm⟩
        cases h with
        | actions hactions => exact hactions

theorem valuesIn_cons (k : String) : part.valuesIn ((k, j) :: rest) =
    if CandidateField.ofKey? k = some part then j :: part.valuesIn rest
    else part.valuesIn rest := by
  unfold CandidateField.valuesIn
  rw [List.filter_cons]
  by_cases hk : CandidateField.ofKey? k = some part <;> simp [hk]

/-- The members that are still to be read spell the parts that have not been seen; those that
have been are as they should be, and the others as they were at first. -/
structure Reads (c₀ c : CandidateConfig) (seen : List CandidateField)
    (members : List (String × Json)) : Prop where
  past : ∀ part ∈ seen, part.valuesIn members = [] ∧ Share c₀ c part
  ahead : ∀ part ∉ seen, SpellsPart c part (part.valuesIn members) ∧ Share c₀ idle part

theorem reads_nil (hidle : ∀ part ∉ seen, Share c₀ idle part) : Reads c₀ c seen [] ↔ c₀ = c := by
  constructor
  · intro h
    refine eq_of_share fun part => ?_
    by_cases hpart : part ∈ seen
    · exact (h.past part hpart).2
    · obtain ⟨hspells, hshare⟩ := h.ahead part hpart
      exact hshare.trans (spellsPart_nil.mp hspells)
  · rintro rfl
    exact ⟨fun part _ => ⟨rfl, by cases part <;> rfl⟩, fun part hpart =>
      ⟨spellsPart_nil.mpr (hidle part hpart).symm, hidle part hpart⟩⟩

/-- A member of no part changes nothing. -/
theorem reads_other {k : String} (hk : CandidateField.ofKey? k = none) :
    Reads c₀ c seen ((k, j) :: rest) ↔ Reads c₀ c seen rest := by
  have hvalues : ∀ part : CandidateField,
      part.valuesIn ((k, j) :: rest) = part.valuesIn rest := fun part => by
    rw [valuesIn_cons, if_neg (by simp [hk])]
  constructor
  · exact fun h => ⟨fun part hpart => hvalues part ▸ h.past part hpart,
      fun part hpart => hvalues part ▸ h.ahead part hpart⟩
  · exact fun h => ⟨fun part hpart => (hvalues part).symm ▸ h.past part hpart,
      fun part hpart => (hvalues part).symm ▸ h.ahead part hpart⟩

/-- The member of a part that has not been seen is the only one of that part. -/
theorem reads_part {k : String} (hk : CandidateField.ofKey? k = some part)
    (hunseen : part ∉ seen) (hidle : Share c₀ idle part) :
    Reads c₀ c seen ((k, j) :: rest) ↔
      SpellsPart c part [j] ∧ Reads (c₀.withPart c part) c (part :: seen) rest := by
  have hvalues : part.valuesIn ((k, j) :: rest) = j :: part.valuesIn rest := by
    rw [valuesIn_cons, if_pos hk]
  have hother : ∀ part', part' ≠ part →
      part'.valuesIn ((k, j) :: rest) = part'.valuesIn rest := fun part' hne => by
    rw [valuesIn_cons, if_neg (by rw [hk]; simpa using hne.symm)]
  constructor
  · intro h
    have hspelled := (h.ahead part hunseen).1
    rw [hvalues] at hspelled
    have htail := hspelled.tail_eq_nil
    refine ⟨by rwa [htail] at hspelled, fun part' hmem => ?_, fun part' hmem => ?_⟩
    · by_cases hne : part' = part
      · rw [hne]
        exact ⟨htail, share_withPart⟩
      · obtain ⟨hnil, hshare⟩ := h.past part' ((List.mem_cons.mp hmem).resolve_left hne)
        exact ⟨by rwa [hother part' hne] at hnil, (share_withPart_of_ne hne).trans hshare⟩
    · rw [List.mem_cons, not_or] at hmem
      obtain ⟨hspells, hshare⟩ := h.ahead part' hmem.2
      exact ⟨by rwa [hother part' hmem.1] at hspells, (share_withPart_of_ne hmem.1).trans hshare⟩
  · rintro ⟨hspelled, h⟩
    refine ⟨fun part' hmem => ?_, fun part' hmem => ?_⟩
    · have hne : part' ≠ part := fun heq => hunseen (heq ▸ hmem)
      obtain ⟨hnil, hshare⟩ := h.past part' (List.mem_cons_of_mem _ hmem)
      exact ⟨by rwa [hother part' hne], (share_withPart_of_ne hne).symm.trans hshare⟩
    · by_cases hne : part' = part
      · rw [hne, hvalues, (h.past part (List.mem_cons_self ..)).1]
        exact ⟨hspelled, hidle⟩
      · obtain ⟨hspells, hshare⟩ := h.ahead part' (by simp [hne, hmem])
        exact ⟨by rwa [hother part' hne], (share_withPart_of_ne hne).symm.trans hshare⟩

/-- A part that has been seen is not written again. -/
theorem Reads.unseen {k : String} (h : Reads c₀ c seen ((k, j) :: rest))
    (hk : CandidateField.ofKey? k = some part) : part ∉ seen := fun hseen => by
  have hnil := (h.past part hseen).1
  rw [valuesIn_cons, if_pos hk] at hnil
  cases hnil

theorem ofMembers?_toRawMembers (hidle : ∀ part ∉ seen, Share c₀ idle part) :
    ofMembers? c₀ seen (toRawMembers members) = some c ↔ Reads c₀ c seen members := by
  induction members generalizing c₀ seen with
  | nil => exact Option.some_inj.trans (reads_nil hidle).symm
  | cons m rest ih =>
      obtain ⟨k, j⟩ := m
      rw [toRawMembers, ofMembers?_member]
      cases hk : CandidateField.ofKey? k with
      | none => simp [reads_other hk, ih hidle]
      | some part =>
          have hnext : ∀ c₁, ∀ part' ∉ part :: seen, Share (c₀.withPart c₁ part) idle part' := by
            intro c₁ part' hmem
            rw [List.mem_cons, not_or] at hmem
            exact (share_withPart_of_ne hmem.1).trans (hidle part' hmem.2)
          constructor
          · rintro (⟨h, -⟩ | ⟨part', c₁, hpart, hunseen, hread, h⟩)
            · cases h
            · cases hpart
              obtain ⟨hspelled, hc₁⟩ := read?_toRaw.mp hread
              have hreads := (ih (hc₁ ▸ hnext c₁)).mp h
              have hshare := (hreads.past part (List.mem_cons_self ..)).2
              rw [hc₁, withPart_congr hshare] at hreads
              exact (reads_part hk hunseen (hidle part hunseen)).mpr
                ⟨hspelled.congr hshare, hreads⟩
          · intro h
            have hunseen := h.unseen hk
            obtain ⟨hspelled, hreads⟩ := (reads_part hk hunseen (hidle part hunseen)).mp h
            refine Or.inr ⟨part, c₀.withPart c part, rfl, hunseen, ?_, (ih (hnext c)).mpr hreads⟩
            exact read?_toRaw.mpr ⟨hspelled.congr share_withPart.symm,
              (withPart_congr share_withPart).symm⟩

/-- **A candidate is read from the members that spell it**, and from no others. -/
theorem ofSound?_eq_some_iff :
    ofSound? (Json.object members).toRaw = some c ↔ Spells members c := by
  have hidle : ∀ part ∉ [], Share idle idle part := fun part _ => by cases part <;> rfl
  refine (ofMembers?_toRawMembers hidle).trans ⟨fun h part => (h.ahead part (by simp)).1,
    fun h => ⟨fun _ hpart => absurd hpart List.not_mem_nil, fun part hpart =>
      ⟨h part, hidle part hpart⟩⟩⟩

theorem mem_candidateKeys {k : String} (h : CandidateField.ofKey? k = some part) :
    k ∈ TransitionConfig.candidateKeys := by
  unfold CandidateField.ofKey? at h
  split at h <;> cases h <;> decide

/-- A candidate with a target is spelled with the key of one. -/
theorem Spells.exists_mem_candidateKeys {t : String} (h : Spells members c)
    (ht : c.target = some t) : ∃ m ∈ members, m.1 ∈ TransitionConfig.candidateKeys := by
  have hne : CandidateField.target.valuesIn members ≠ [] := fun hnil => by
    have hidle : Share idle c .target := spellsPart_nil.mp (hnil ▸ h .target)
    have hnone : none = c.target := hidle
    rw [← hnone] at ht
    cases ht
  obtain ⟨j, hj⟩ := List.exists_mem_of_ne_nil _ hne
  obtain ⟨m, hm, -⟩ := List.mem_map.mp hj
  obtain ⟨hmem, hkey⟩ := List.mem_filter.mp hm
  exact ⟨m, hmem, mem_candidateKeys (of_decide_eq_true hkey)⟩

end CandidateConfig

/-! ### Transitions -/

namespace TransitionConfig

open CandidateConfig

variable {c : CandidateConfig} {cs : TransitionConfig} {form : Json} {items : List Json}

/-- A value is decoded to candidates: as it stands, and as a text that nests no deeper than a
text may. -/
def Decodes (form : Json) (cs : TransitionConfig) : Prop :=
  ofRaw .value form.toRaw = .ok cs ∧
    ∀ levels j, form.toRaw.value (.text levels) = .ok j →
      ofRaw (.text levels) form.toRaw = .ok cs

theorem decodes_of_forall (h : ∀ (o : Origin) (j : Json), form.toRaw.value o = .ok j →
    ofRaw o form.toRaw = .ok cs) : Decodes form cs := by
  obtain ⟨j, hj⟩ := Json.exists_means_toRaw form
  exact ⟨h .value j hj, fun levels j => h (.text levels) j⟩

/-- An item of an array that spells a candidate. -/
inductive SpellsItem : Json → CandidateConfig → Prop
  | target {t : String} (nonempty : t ≠ "") :
      SpellsItem (.string t) { idle with target := some t }
  | object {members : List (String × Json)} {c : CandidateConfig} (spelled : Spells members c) :
      SpellsItem (.object members) c

theorem toTarget_of_ne (h : target ≠ "") :
    toTarget target = { idle with target := some target } := by
  rw [toTarget, if_neg (by simpa using h)]

theorem SpellsItem.read (h : SpellsItem j c) : ofItem? j.toRaw = some c := by
  cases h with
  | target nonempty => exact congrArg some (toTarget_of_ne nonempty)
  | object spelled => exact ofSound?_eq_some_iff.mpr spelled

/-- An object is decoded as its value is, in which no key is there twice. -/
theorem ofRaw_object {o : Origin} (h : (Json.object members).toRaw.value o = .ok j) :
    ∃ o' ms, o.inner = .ok o' ∧ (toRawMembers members).values o' [] = .ok ms ∧
      j = .object ms ∧ ofRaw o (Json.object members).toRaw = Json.wanted (ofObject? ms) := by
  obtain ⟨o', ho, h⟩ := bind_eq_ok.mp h
  obtain ⟨ms, hms, h⟩ := bind_eq_ok.mp h
  cases h
  refine ⟨o', ms, ho, hms, rfl, ?_⟩
  show (o.inner >>= fun o => (toRawMembers members).values o [] >>= fun ms =>
    Json.wanted (ofObject? ms)) = _
  rw [ho]
  show ((toRawMembers members).values o' [] >>= fun ms => Json.wanted (ofObject? ms)) = _
  rw [hms]
  rfl

/-- An object with the parts of a candidate is that candidate. -/
theorem decodes_object (h : Spells members c) (ht : c.target = some target) :
    Decodes (.object members) [c] := by
  refine decodes_of_forall fun o j hj => ?_
  obtain ⟨o', ms, -, -, rfl, hof⟩ := ofRaw_object hj
  have hread : ofSound? (Json.object ms).toRaw = some c :=
    stable_ofSound? _ _ _ (Raw.means_of_value hj) (ofSound?_eq_some_iff.mpr h)
  have hkeys : (ms.any fun m => m.1 ∈ candidateKeys) = true := by
    simpa using (ofSound?_eq_some_iff.mp hread).exists_mem_candidateKeys ht
  rw [hof, ofObject?, if_pos hkeys, hread]
  rfl

/-- A mapping from one target. -/
theorem decodes_targetEntry (hkey : target ∉ candidateKeys)
    (hentry : ∀ j', j.toRaw.Means j' → ofTargetEntry? target j' = some c) :
    Decodes (.object [(target, j)]) [c] := by
  refine decodes_of_forall fun o value hvalue => ?_
  obtain ⟨o', ms, -, hms, -, hof⟩ := ofRaw_object hvalue
  rw [toRawMembers, Raw.Members.values] at hms
  obtain ⟨_, hk, hms⟩ := bind_eq_ok.mp hms
  obtain ⟨j', hj', hms⟩ := bind_eq_ok.mp hms
  cases hk
  cases hms
  have hkeys : ([(target, j')].any fun m => m.1 ∈ candidateKeys) = false := by simpa using hkey
  rw [hof, Json.putMember, ofObject?, if_neg (by rw [hkeys]; decide), List.mapM_cons,
    hentry j' (Raw.means_of_value hj')]
  rfl

theorem decodes_targetNull (hkey : target ∉ candidateKeys) :
    Decodes (.object [(target, .null)]) [{ idle with target := some target }] :=
  decodes_targetEntry hkey fun j' hj' => by cases hj'; rfl

/-- A target mapped to an object with the other parts is the candidate of all of them. -/
theorem decodes_targetMap (hkey : target ∉ candidateKeys) (ht : c.target = some target)
    (h : Spells rest { c with target := none }) :
    Decodes (.object [(target, .object rest)]) [c] := by
  refine decodes_targetEntry hkey fun j' hj' => ?_
  have hread := stable_ofSound? _ _ _ hj' (ofSound?_eq_some_iff.mpr h)
  obtain ⟨pairs, -, rfl⟩ := Raw.means_object.mp hj'
  unfold ofTargetEntry?
  rw [if_neg (by simp [Json.isNull]), hread, ← ht]
  rfl

theorem decodes_string (h : target ≠ "") :
    Decodes (.string target) [{ idle with target := some target }] :=
  decodes_of_forall fun o j _ => by
    show Except.ok [toTarget target] = _
    rw [toTarget_of_ne h]

theorem ofItems_of_spells {o : Origin} {js : List Json} {cs : TransitionConfig}
    (h : List.Forall₂ SpellsItem items cs) (hvalues : (toRawItems items).values o = .ok js) :
    ofItems o (toRawItems items) = .ok cs := by
  induction h generalizing js with
  | nil => rfl
  | @cons item c items cs hitem _ ih =>
      obtain ⟨j, hj, hvalues⟩ := bind_eq_ok.mp hvalues
      obtain ⟨js, hjs, -⟩ := bind_eq_ok.mp hvalues
      have hsound : item.toRaw.sound o = .ok () := by
        cases o with
        | text levels => exact map_eq_ok.mpr ⟨j, hj, rfl⟩
        | value => rfl
      rw [toRawItems, ofItems, hsound, wanted_eq_ok.mpr hitem.read, ih hjs]
      rfl

/-- An array gives the candidates of its items in their order. -/
theorem decodes_array (h : List.Forall₂ SpellsItem items cs) : Decodes (.array items) cs := by
  refine decodes_of_forall fun o j hj => ?_
  obtain ⟨o', ho, hj⟩ := bind_eq_ok.mp hj
  obtain ⟨js, hjs, -⟩ := bind_eq_ok.mp hj
  show (o.inner >>= fun o => ofItems o (toRawItems items)) = .ok cs
  rw [ho]
  exact ofItems_of_spells h hjs

/-- **All spellings of a transition are decoded alike.**  A target, a guard and actions give
one candidate, whether they are written as an object, as an array of that object, or as a mapping
from the target to an object with the other two; a target alone gives the same candidate in
each of five forms; and an array gives one candidate for each item, in their order. -/
theorem decodes_alike (ht : target ≠ "") (hkey : target ∉ candidateKeys) :
    (∀ guard actions members rest, Spells members ⟨some target, guard, actions⟩ →
      Spells rest ⟨none, guard, actions⟩ →
      ∀ form ∈ [Json.object members, .array [.object members], .object [(target, .object rest)]],
        Decodes form [⟨some target, guard, actions⟩]) ∧
    (∀ form ∈ [Json.string target, .array [.string target], .object [(target, .null)],
      .object [(target, .object [])], .object [("target", .string target)]],
        Decodes form [⟨some target, none, []⟩]) ∧
    ∀ items cs, List.Forall₂ SpellsItem items cs → Decodes (.array items) cs := by
  have hempty : Spells [] idle := fun part => by
    cases part
    · exact .noTarget rfl
    · exact .noGuard rfl
    · exact .noActions rfl
  have hsingle : Spells [("target", .string target)] ⟨some target, none, []⟩ := fun part => by
    cases part
    · exact .target rfl
    · exact .noGuard rfl
    · exact .noActions rfl
  refine ⟨fun guard actions members rest hmembers hrest => ?_, ?_, fun items cs => decodes_array⟩
  · simp only [List.forall_mem_cons, List.not_mem_nil, false_implies, implies_true, and_true]
    exact ⟨decodes_object hmembers rfl, decodes_array (.cons (.object hmembers) .nil),
      decodes_targetMap hkey rfl hrest⟩
  · simp only [List.forall_mem_cons, List.not_mem_nil, false_implies, implies_true, and_true]
    exact ⟨decodes_string ht, decodes_array (.cons (.target ht) .nil), decodes_targetNull hkey,
      decodes_targetMap hkey rfl hempty, decodes_object hsingle rfl⟩

/-! ### A transition whose parts are written in several ways -/

/-- A guard and two actions, written by their types and by name. -/
def noticeParts (guardKey : String) : List (String × Json) :=
  [(guardKey, .object [("type", .string "isReady")]),
    ("actions", .array [.string "log", .object [("note", .null), ("type", .string "notify")]])]

theorem spells_noticeParts :
    Spells (noticeParts "guard") ⟨none, some (.named "isReady"), ["log", "notify"]⟩ ∧
      Spells (noticeParts "cond" ++ [("target", .string "b")])
        ⟨some "b", some (.named "isReady"), ["log", "notify"]⟩ := by
  have hactions : List.Forall₂ SpellsAction
      [.string "log", .object [("note", .null), ("type", .string "notify")]] ["log", "notify"] :=
    .cons (.name _) (.cons (.typed rfl) .nil)
  constructor <;> intro part <;> cases part
  · exact .noTarget rfl
  · exact .guard rfl (.typed rfl)
  · exact .actions (.many hactions)
  · exact .target rfl
  · exact .guard rfl (.typed rfl)
  · exact .actions (.many hactions)

theorem decodes_alike_noticeParts : "b" ≠ "" ∧ "b" ∉ candidateKeys ∧
    (∀ form ∈ [Json.object (noticeParts "cond" ++ [("target", .string "b")]),
      .array [.object (noticeParts "cond" ++ [("target", .string "b")])],
      .object [("b", .object (noticeParts "guard"))]],
        Decodes form [⟨some "b", some (.named "isReady"), ["log", "notify"]⟩]) ∧
    Decodes (.array [.string "b", .object (noticeParts "guard")])
      [⟨some "b", none, []⟩, ⟨none, some (.named "isReady"), ["log", "notify"]⟩] := by
  have ht : "b" ≠ "" := by decide
  have hkey : "b" ∉ candidateKeys := by decide
  obtain ⟨hparts, -, harray⟩ := decodes_alike ht hkey
  obtain ⟨hrest, hmembers⟩ := spells_noticeParts
  exact ⟨ht, hkey, hparts _ _ _ _ hmembers hrest,
    harray _ _ (.cons (.target ht) (.cons (.object hrest) .nil))⟩

end TransitionConfig

end Statechart
