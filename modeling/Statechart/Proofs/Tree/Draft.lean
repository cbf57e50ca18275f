/-
What a definition that passes the checks has to be like.

`Draft.check` walks a definition once and refuses its first fault.  `Sound` collects
what the walk has made sure of when it refuses nothing: at the draft itself, in
`SoundHead`, and at every draft below it.  The ids need a second account, because they
are compared across the whole definition: `names` lists them as they are met, and
`check_names` says that the walk hands on exactly that list and lets no id in twice.

Both are inductions on the definition, with one theorem for a state and one for the
states of a node, like the walk itself.
-/
import Mathlib.Data.List.Nodup
import Statechart.Proofs.Outcome
import Statechart.Tree.Build

namespace Statechart

open Outcome

/-- What a text has to be like to be a key. -/
structure IsKey (key : String) : Prop where
  ne : key ≠ ""
  dot : '.' ∉ key.toList
  hash : '#' ∉ key.toList

theorem isKey_of_checkKey {key : String} {u : Unit} (h : checkKey key = .ok u) : IsKey key := by
  unfold checkKey at h
  split at h
  · cases h
  rename_i hempty
  split at h
  · cases h
  rename_i hplain
  refine ⟨fun h => hempty (by rw [h]; rfl), fun hdot => hplain ?_, fun hhash => hplain ?_⟩
  · exact List.any_eq_true.mpr ⟨'.', hdot, rfl⟩
  · exact List.any_eq_true.mpr ⟨'#', hhash, rfl⟩

namespace Draft

/-- What the walk makes sure of at one draft. -/
structure SoundHead (d : Draft) : Prop where
  /-- Only compound and parallel nodes have children. -/
  hasChildren : d.children ≠ [] → d.kind.hasChildren = true
  /-- A compound node starts in a child that may be active. -/
  initial : d.kind = .compound →
    ∃ c ∈ d.children, d.initial = some c.key ∧ c.kind.isHistory = false
  /-- No two children have one key. -/
  keys : (d.children.map Draft.key).Nodup
  /-- The id of a child is the id of the node and the key of the child, joined. -/
  ids : ∀ c ∈ d.children, c.id = d.id ++ "." ++ c.key

/-- What the walk makes sure of at a draft and everywhere below it. -/
inductive Sound : Draft → Prop
  | mk {d : Draft} (head : SoundHead d) (rest : ∀ c ∈ d.children, Sound c) : Sound d

theorem Sound.head {d : Draft} : Sound d → SoundHead d
  | .mk head _ => head

theorem Sound.child {d : Draft} : Sound d → ∀ c ∈ d.children, Sound c
  | .mk _ rest => rest

/-! ### The checks of a head -/

theorem refuse_eq_ok {α : Type} {x : Except DefinitionFault α} {a : α} :
    refuse x = .ok a ↔ x = .ok a := by
  cases x with
  | error fault => constructor <;> intro h <;> cases h
  | ok b => constructor <;> intro h <;> cases h <;> rfl

theorem noteId_eq_ok {seen seen' : List String} {id : String} :
    noteId seen id = .ok seen' ↔ id ∉ seen ∧ seen' = id :: seen := by
  unfold noteId
  by_cases h : id ∈ seen
  · rw [if_pos h]
    constructor
    · intro h'; cases h'
    · rintro ⟨h', _⟩; exact absurd h h'
  · rw [if_neg h]
    constructor
    · intro h'; cases h'; exact ⟨h, rfl⟩
    · rintro ⟨_, rfl⟩; rfl

/-- The id that a state is given besides its own: the root is given none. -/
def givenIdOf (isRoot : Bool) (c : StateConfig) : Option String :=
  if isRoot then none else c.id

theorem checkHead_eq_ok {isRoot : Bool} {id : String} {c : StateConfig} {seen seen' : List String}
    {kind : NodeKind} (h : checkHead isRoot id c seen = .ok (kind, seen')) :
    (isRoot = true → kind.isHistory = false) ∧ (c.states ≠ [] → kind.hasChildren = true) ∧
      seen' = (givenIdOf isRoot c).toList ++ id :: seen ∧ (seen.Nodup → seen'.Nodup) := by
  unfold checkHead at h
  obtain ⟨k, -, h⟩ := bind_eq_ok.mp h
  dsimp only at h
  by_cases hroot : (isRoot && k.isHistory) = true
  · rw [if_pos hroot] at h
    cases h
  by_cases hstates : (!c.states.isEmpty && !k.hasChildren) = true
  · rw [if_neg hroot, if_pos hstates] at h
    cases h
  rw [if_neg hroot, if_neg hstates] at h
  obtain ⟨seen₁, hid, h⟩ := bind_eq_ok.mp h
  obtain ⟨hfresh, rfl⟩ := noteId_eq_ok.mp hid
  have hkind : k = kind ∧ seen' = (givenIdOf isRoot c).toList ++ id :: seen ∧
      (seen.Nodup → seen'.Nodup) := by
    unfold givenIdOf
    split at h
    · rename_i hgiven
      cases h
      rw [hgiven]
      exact ⟨rfl, rfl, fun hnodup => List.nodup_cons.mpr ⟨hfresh, hnodup⟩⟩
    · rename_i given hgiven
      obtain ⟨_, -, h⟩ := bind_eq_ok.mp h
      obtain ⟨seen₂, hnote, h⟩ := bind_eq_ok.mp h
      obtain ⟨hfresh', rfl⟩ := noteId_eq_ok.mp hnote
      cases h
      rw [hgiven]
      exact ⟨rfl, rfl, fun hnodup =>
        List.nodup_cons.mpr ⟨hfresh', List.nodup_cons.mpr ⟨hfresh, hnodup⟩⟩⟩
  obtain ⟨rfl, hseen, hnodup⟩ := hkind
  refine ⟨?_, ?_, hseen, hnodup⟩
  · intro hr
    simpa [hr] using hroot
  · intro hs
    simpa [hs] using hstates

theorem checkInitial_eq_ok {id : String} {kind : NodeKind} {initial checked : Option String}
    {children : List Draft} (h : checkInitial id kind initial children = .ok checked)
    (hkind : kind = .compound) :
    ∃ c ∈ children, checked = some c.key ∧ c.kind.isHistory = false := by
  unfold checkInitial at h
  rw [if_neg (by simp [hkind])] at h
  split at h
  · cases h
  · rename_i key
    split at h
    · cases h
    · rename_i child hfind
      split at h
      · cases h
      · rename_i hhistory
        cases h
        have hkey := List.find?_some hfind
        refine ⟨child, List.mem_of_find?_eq_some hfind, ?_, by simpa using hhistory⟩
        simpa using (beq_iff_eq.mp hkey).symm

/-! ### The ids of a draft -/

mutual

/-- The ids of a draft and of everything below it, as the walk meets them. -/
def names : Draft → List String
  | ⟨id, _, givenId, _, _, _, _, _, children⟩ => id :: (givenId.toList ++ namesAll children)

/-- The ids of some drafts, as the walk meets them. -/
def namesAll : List Draft → List String
  | [] => []
  | d :: rest => names d ++ namesAll rest

end

/-! ### The walk -/

/-- What holds of the children that have been checked so far. -/
structure SoundChildren (id : String) (ds : List Draft) : Prop where
  below : ∀ c ∈ ds, Sound c
  ids : ∀ c ∈ ds, c.id = id ++ "." ++ c.key
  keys : (ds.map Draft.key).Nodup

theorem SoundChildren.push {id : String} {ds : List Draft} {d : Draft}
    (h : SoundChildren id ds) (hd : Sound d) (hid : d.id = id ++ "." ++ d.key)
    (hkey : ∀ c ∈ ds, c.key ≠ d.key) : SoundChildren id (ds ++ [d]) := by
  refine ⟨?_, ?_, ?_⟩
  · intro c hc
    rcases List.mem_append.mp hc with hc | hc
    · exact h.below c hc
    · rwa [List.mem_singleton.mp hc]
  · intro c hc
    rcases List.mem_append.mp hc with hc | hc
    · exact h.ids c hc
    · rwa [List.mem_singleton.mp hc]
  · rw [List.map_append, List.map_singleton]
    refine List.nodup_append.mpr ⟨h.keys, List.nodup_singleton _, ?_⟩
    intro k hk k' hk' heq
    obtain ⟨c, hc, rfl⟩ := List.mem_map.mp hk
    exact hkey c hc (heq.trans (List.mem_singleton.mp hk'))

/-- What the walk gives for a state. -/
structure Checked (isRoot : Bool) (key id : String) (seen : List String) (d : Draft)
    (seen' : List String) : Prop where
  sound : Sound d
  id_eq : d.id = id
  key_eq : d.key = key
  root : isRoot = true → d.kind.isHistory = false
  /-- The ids in use are those of before and those of the draft. -/
  seen_eq : seen' = (names d).reverse ++ seen
  nodup : seen.Nodup → seen'.Nodup

/-- What the walk gives for the states of a node, beside those that were checked before. -/
structure CheckedChildren (id : String) (before : List Draft) (seen : List String)
    (l : List (String × StateConfig)) (ds : List Draft) (seen' : List String) : Prop where
  sound : SoundChildren id ds
  empty : l = [] → ds = before
  /-- The ids in use are those of before and those of the drafts that are new. -/
  seen_eq : ∃ new, ds = before ++ new ∧ seen' = (namesAll new).reverse ++ seen
  nodup : seen.Nodup → seen'.Nodup

theorem soundChildren_nil (id : String) : SoundChildren id [] where
  below := by simp
  ids := by simp
  keys := List.nodup_nil

mutual

theorem check_eq_ok (isRoot : Bool) (key id : String) (seen : List String) :
    ∀ (c : StateConfig) (d : Draft) (seen' : List String),
      check isRoot key id seen c = .ok (d, seen') → Checked isRoot key id seen d seen'
  | ⟨givenId, k, initial, type, parallel, history, states, on, after, onDone, entry, exit,
      context⟩, d, seen', h => by
      rw [check] at h
      obtain ⟨⟨kind, seen₁⟩, hhead, h⟩ := bind_eq_ok.mp h
      obtain ⟨handlers, -, h⟩ := bind_eq_ok.mp h
      obtain ⟨⟨children, seen₂⟩, hchildren, h⟩ := bind_eq_ok.mp h
      obtain ⟨checked, hinitial, h⟩ := bind_eq_ok.mp h
      cases h
      obtain ⟨hroot, hstates, hseen₁, hnodup₁⟩ := checkHead_eq_ok hhead
      have hrest := checkChildren_eq_ok id [] seen₁ states children _ hchildren
        (soundChildren_nil id)
      obtain ⟨new, hnew, hseen₂⟩ := hrest.seen_eq
      rw [List.nil_append] at hnew
      refine ⟨Sound.mk ⟨?_, ?_, hrest.sound.keys, hrest.sound.ids⟩ hrest.sound.below, rfl, rfl,
        hroot, ?_, fun hnodup => hrest.nodup (hnodup₁ hnodup)⟩
      · intro hne
        exact hstates fun hnil => hne (hrest.empty hnil)
      · intro hkind
        exact checkInitial_eq_ok (refuse_eq_ok.mp hinitial) hkind
      · rw [names, hseen₂, hseen₁, hnew]
        cases isRoot
        · cases givenId <;> simp [givenIdOf]
        · simp [givenIdOf]

theorem checkChildren_eq_ok (id : String) (before : List Draft) (seen : List String) :
    ∀ (l : List (String × StateConfig)) (ds : List Draft) (seen' : List String),
      checkChildren id before seen l = .ok (ds, seen') → SoundChildren id before →
        CheckedChildren id before seen l ds seen'
  | [], ds, seen', h, hbefore => by
      rw [checkChildren] at h
      cases h
      exact ⟨hbefore, fun _ => rfl, ⟨[], by simp [namesAll]⟩, fun hnodup => hnodup⟩
  | (key, config) :: rest, ds, seen', h, hbefore => by
      rw [checkChildren] at h
      obtain ⟨_, -, h⟩ := bind_eq_ok.mp h
      dsimp only at h
      by_cases hkey : (before.any fun d => d.key == key) = true
      · rw [if_pos hkey] at h
        cases h
      rw [if_neg hkey] at h
      obtain ⟨⟨d, seen₁⟩, hd, h⟩ := bind_eq_ok.mp h
      have hone := check_eq_ok false key (id ++ "." ++ key) seen config d seen₁ hd
      have hfresh : ∀ c ∈ before, c.key ≠ d.key := by
        intro c hc heq
        refine hkey (List.any_eq_true.mpr ⟨c, hc, ?_⟩)
        rw [heq, hone.key_eq]
        exact beq_self_eq_true key
      have hpush : SoundChildren id (before ++ [d]) :=
        hbefore.push hone.sound (by rw [hone.id_eq, hone.key_eq]) hfresh
      have hrest := checkChildren_eq_ok id (before ++ [d]) seen₁ rest ds seen' h hpush
      obtain ⟨new, hnew, hseen⟩ := hrest.seen_eq
      refine ⟨hrest.sound, by simp, ⟨d :: new, ?_, ?_⟩,
        fun hnodup => hrest.nodup (hone.nodup hnodup)⟩
      · rw [hnew, List.append_assoc, List.singleton_append]
      · rw [hseen, hone.seen_eq, namesAll, List.reverse_append, List.append_assoc]

end

/-- **A definition that passes is sound, and no two of its nodes share an id.** -/
theorem sound_of_check {name : String} {c : StateConfig} {d : Draft} {seen : List String}
    (h : check true name name [] c = .ok (d, seen)) :
    Sound d ∧ d.kind.isHistory = false ∧ (names d).Nodup := by
  have hd := check_eq_ok true name name [] c d seen h
  refine ⟨hd.sound, hd.root rfl, ?_⟩
  have hnodup := hd.nodup List.nodup_nil
  rwa [hd.seen_eq, List.append_nil, List.nodup_reverse] at hnodup

end Draft

end Statechart
