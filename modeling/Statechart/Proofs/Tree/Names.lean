/-
Which texts name which node.

A node is found by its dotted id and by the id that it was given.  The walk over a
definition lets dots into neither the name of the root nor a key nor a given id, so that
a text with a dot in it can only be the dotted id of a node, and the texts without one are
those of the root and the given ids.  What is read from outside is always a text below the
id of the root, and `id_of_lookup` says that such a text finds no node but its own.
-/
import Statechart.Proofs.Tree.Loaded

namespace Statechart

open Outcome

namespace Draft

/-- No given id in a draft, its own or one below it, holds a dot. -/
inductive Plain : Draft → Prop
  | mk {d : Draft} (head : ∀ g, d.givenId = some g → '.' ∉ g.toList)
      (rest : ∀ c ∈ d.children, Plain c) : Plain d

theorem Plain.head {d : Draft} : Plain d → ∀ g, d.givenId = some g → '.' ∉ g.toList
  | .mk head _ => head

theorem Plain.child {d : Draft} : Plain d → ∀ c ∈ d.children, Plain c
  | .mk _ rest => rest

/-- The id that a state is given is checked like a key. -/
theorem givenIdOf_plain {isRoot : Bool} {id : String} {c : StateConfig}
    {seen seen' : List String} {kind : NodeKind}
    (h : checkHead isRoot id c seen = .ok (kind, seen')) :
    ∀ g, givenIdOf isRoot c = some g → '.' ∉ g.toList := by
  intro g hg
  unfold checkHead at h
  obtain ⟨k, -, h⟩ := bind_eq_ok.mp h
  dsimp only at h
  split at h
  · cases h
  split at h
  · cases h
  obtain ⟨seen₁, -, h⟩ := bind_eq_ok.mp h
  unfold givenIdOf at hg
  rw [hg] at h
  obtain ⟨_, hkey, -⟩ := bind_eq_ok.mp h
  exact (isKey_of_checkKey hkey).dot

mutual

theorem plain_of_check (isRoot : Bool) (key id : String) (seen : List String) :
    ∀ (c : StateConfig) (d : Draft) (seen' : List String),
      check isRoot key id seen c = .ok (d, seen') → Plain d
  | ⟨givenId, k, initial, type, parallel, history, states, on, after, onDone, entry, exit,
      context⟩, d, seen', h => by
      rw [check] at h
      obtain ⟨⟨kind, seen₁⟩, hhead, h⟩ := bind_eq_ok.mp h
      obtain ⟨handlers, -, h⟩ := bind_eq_ok.mp h
      obtain ⟨⟨children, seen₂⟩, hchildren, h⟩ := bind_eq_ok.mp h
      obtain ⟨checked, -, h⟩ := bind_eq_ok.mp h
      cases h
      exact .mk (givenIdOf_plain hhead) (plain_of_checkChildren id [] seen₁ states children _
        hchildren fun c hc => absurd hc List.not_mem_nil)

theorem plain_of_checkChildren (id : String) (before : List Draft) (seen : List String) :
    ∀ (l : List (String × StateConfig)) (ds : List Draft) (seen' : List String),
      checkChildren id before seen l = .ok (ds, seen') → (∀ c ∈ before, Plain c) →
        ∀ c ∈ ds, Plain c
  | [], ds, seen', h, hbefore => by
      rw [checkChildren] at h
      cases h
      exact hbefore
  | (key, config) :: rest, ds, seen', h, hbefore => by
      rw [checkChildren] at h
      obtain ⟨_, -, h⟩ := bind_eq_ok.mp h
      dsimp only at h
      split at h
      · cases h
      obtain ⟨⟨d, seen₁⟩, hd, h⟩ := bind_eq_ok.mp h
      refine plain_of_checkChildren id (before ++ [d]) seen₁ rest ds seen' h fun c hc => ?_
      rcases List.mem_append.mp hc with hc | hc
      · exact hbefore c hc
      · rw [List.mem_singleton.mp hc]
        exact plain_of_check false key (id ++ "." ++ key) seen config d seen₁ hd

end

end Draft

namespace Tree

variable {t : Tree} {i : Nat} {id : String}

/-- No given id of a tree holds a dot. -/
def PlainNames (t : Tree) : Prop :=
  ∀ i, i < t.size → ∀ g, (t.node i).givenId = some g → '.' ∉ g.toList

theorem plainNames_of_build {name : String} {c : StateConfig} (h : build name c = .ok t) :
    PlainNames t := by
  obtain ⟨_, d, seen, hcheck, rfl, _⟩ := exists_draft_of_build h
  intro i hi g hg
  have hplain := Draft.plain_of_check true name name [] c d seen hcheck
  rw [Draft.size_toTree] at hi
  obtain ⟨d', parent, depth, hstands, hplain', _⟩ := (Draft.stands_toTree d).find
    (fun _ h => h.child) d.size rfl hplain i (Nat.zero_le i) (by omega)
  rw [hstands.head.2] at hg
  exact hplain'.head g hg

/-- **A text with a dot in it finds no node but the one whose dotted id it is.** -/
theorem id_of_lookup (hplain : PlainNames t) (hdot : '.' ∈ id.toList)
    (h : t.lookup id = some i) : i < t.size ∧ (t.node i).id = id := by
  obtain ⟨hi, hmem⟩ := mem_namesOf_of_lookup h
  refine ⟨hi, ?_⟩
  rcases List.mem_cons.mp hmem with hid | hgiven
  · exact hid.symm
  · exact absurd hdot (hplain i hi id (Option.mem_toList.mp hgiven))

end Tree

end Statechart
