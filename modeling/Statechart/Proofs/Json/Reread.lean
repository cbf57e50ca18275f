/-
Values that are read a second time.

A value that a text stands for can be written out as a text again and read once more
(`toRaw`).  Nothing is lost by that (`means_toRaw`), but the two texts differ: a member that
the first writes twice is one member in the value, at the place of the first and with what
the last says (`mergeMembers`).

A reader of objects sees the difference only if it looks at a member that was written twice.
Most readers look at the keys they know and pass over the others (`Heeds`), and refuse to find
one of theirs a second time, so that for them both texts are the same (`Heeds.collapse`).
-/
import Mathlib.Data.List.Nodup
import Statechart.Definition.Decode
import Statechart.Proofs.Outcome

namespace Statechart.Json

open Outcome

/-! ### Members that are written twice -/

section Members

variable {members pairs : List (String × Json)} {key : String} {value : Json}

theorem putMember_of_not_mem (h : key ∉ members.map Prod.fst) :
    putMember members key value = members ++ [(key, value)] := by
  induction members with
  | nil => rfl
  | cons m rest ih =>
      obtain ⟨k, v⟩ := m
      rw [List.map_cons, List.mem_cons, not_or] at h
      rw [putMember, if_neg fun heq => h.1 heq.symm, ih h.2, List.cons_append]

theorem mem_putMember {m : String × Json} (h : m ∈ putMember members key value) :
    m ∈ members ∨ m = (key, value) := by
  induction members with
  | nil => exact Or.inr (List.mem_singleton.mp h)
  | cons head rest ih =>
      obtain ⟨k, v⟩ := head
      unfold putMember at h
      split at h
      · rename_i hk
        rcases List.mem_cons.mp h with rfl | h
        · exact Or.inr (by rw [hk])
        · exact Or.inl (List.mem_cons_of_mem _ h)
      · rcases List.mem_cons.mp h with rfl | h
        · exact Or.inl (List.mem_cons_self ..)
        · exact (ih h).imp_left (List.mem_cons_of_mem _)

/-- A member that is not looked at is written without being seen. -/
theorem filter_putMember (known : String → Bool) :
    (putMember members key value).filter (fun m => known m.1) =
      if known key then putMember (members.filter fun m => known m.1) key value
      else members.filter fun m => known m.1 := by
  induction members with
  | nil => by_cases h : known key <;> simp [putMember, h]
  | cons head rest ih =>
      obtain ⟨k, v⟩ := head
      by_cases hk : k = key
      · subst hk
        by_cases h : known k <;> simp [putMember, h]
      · rw [putMember, if_neg hk, List.filter_cons, List.filter_cons, ih]
        by_cases hkey : known key <;> by_cases h : known k <;> simp [putMember, hkey, h, hk]

theorem mergeMembers_cons (m : String × Json) :
    mergeMembers members (m :: pairs) = mergeMembers (putMember members m.1 m.2) pairs := rfl

/-- Members of which no two have one key stay as they are written. -/
theorem mergeMembers_of_nodup (h : (members.map Prod.fst ++ pairs.map Prod.fst).Nodup) :
    mergeMembers members pairs = members ++ pairs := by
  induction pairs generalizing members with
  | nil => rw [List.append_nil]; rfl
  | cons m rest ih =>
      have hfresh : m.1 ∉ members.map Prod.fst := fun hmem =>
        List.disjoint_of_nodup_append h hmem (List.mem_cons_self ..)
      rw [mergeMembers_cons, putMember_of_not_mem hfresh, ih, List.append_assoc,
        List.singleton_append]
      rwa [List.map_append, List.append_assoc]

theorem mergeMembers_nil_of_nodup (h : (pairs.map Prod.fst).Nodup) :
    mergeMembers [] pairs = pairs :=
  mergeMembers_of_nodup h

theorem mem_mergeMembers {m : String × Json} (h : m ∈ mergeMembers members pairs) :
    m ∈ members ∨ m ∈ pairs := by
  induction pairs generalizing members with
  | nil => exact Or.inl h
  | cons head rest ih =>
      rcases ih h with h | h
      · exact (mem_putMember h).imp_right fun heq => by rw [heq]; exact List.mem_cons_self ..
      · exact Or.inr (List.mem_cons_of_mem _ h)

/-- However often a key is written, it is there once. -/
theorem nodup_keys_mergeMembers (h : (members.map Prod.fst).Nodup) :
    ((mergeMembers members pairs).map Prod.fst).Nodup := by
  induction pairs generalizing members with
  | nil => exact h
  | cons m rest ih =>
      refine ih ?_
      rw [keys_putMember]
      split
      · exact h
      · rename_i hfresh
        exact List.nodup_append.mpr ⟨h, List.nodup_singleton _, fun k hk k' hk' heq =>
          hfresh (by rwa [← List.mem_singleton.mp hk', ← heq])⟩

theorem filter_mergeMembers (known : String → Bool) :
    (mergeMembers members pairs).filter (fun m => known m.1) =
      mergeMembers (members.filter fun m => known m.1) (pairs.filter fun m => known m.1) := by
  induction pairs generalizing members with
  | nil => rfl
  | cons m rest ih =>
      rw [mergeMembers_cons, ih, filter_putMember, List.filter_cons]
      by_cases h : known m.1
      · rw [if_pos h, if_pos h, mergeMembers_cons]
      · rw [if_neg h, if_neg h]

end Members

/-- A reader of objects that passes over members with other keys than those that are known. -/
def Heeds {α : Type} (known : String → Bool) (read : Raw.Members → α) : Prop :=
  ∀ pairs, read (toRawMembers pairs) = read (toRawMembers (pairs.filter fun m => known m.1))

/-- Who finds no key of its own twice does not see what else is written twice. -/
theorem Heeds.collapse {α : Type} {known : String → Bool} {read : Raw.Members → α}
    (h : Heeds known read) {pairs : List (String × Json)}
    (hnodup : ((pairs.filter fun m => known m.1).map Prod.fst).Nodup) :
    read (toRawMembers (mergeMembers [] pairs)) = read (toRawMembers pairs) := by
  rw [h, h pairs, filter_mergeMembers, List.filter_nil, mergeMembers_nil_of_nodup hnodup]

/-- Members of which some write a part: none of those that were `seen`, and none twice. -/
inductive Fresh {P : Type} (part? : String → Option P) : List P → List (String × Json) → Prop
  | nil {seen : List P} : Fresh part? seen []
  | other {seen : List P} {m : String × Json} {rest : List (String × Json)}
      (none : part? m.1 = none) (fresh : Fresh part? seen rest) : Fresh part? seen (m :: rest)
  | part {seen : List P} {m : String × Json} {rest : List (String × Json)} {p : P}
      (some : part? m.1 = some p) (unseen : p ∉ seen) (fresh : Fresh part? (p :: seen) rest) :
      Fresh part? seen (m :: rest)

namespace Fresh

variable {P : Type} {part? : String → Option P} {seen : List P} {pairs : List (String × Json)}

theorem unseen (h : Fresh part? seen pairs) {m : String × Json} (hm : m ∈ pairs) {p : P}
    (hp : part? m.1 = some p) : p ∉ seen := by
  induction h with
  | nil => exact absurd hm List.not_mem_nil
  | other hnone _ ih =>
      rcases List.mem_cons.mp hm with rfl | hm
      · rw [hnone] at hp
        cases hp
      · exact ih hm
  | part hsome hunseen _ ih =>
      rcases List.mem_cons.mp hm with rfl | hm
      · rw [hsome] at hp
        cases hp
        exact hunseen
      · exact fun hseen => ih hm (List.mem_cons_of_mem _ hseen)

/-- The key of a part is written once. -/
theorem nodup_keys (h : Fresh part? seen pairs) :
    ((pairs.filter fun m => (part? m.1).isSome).map Prod.fst).Nodup := by
  induction h with
  | nil => exact List.nodup_nil
  | other hnone _ ih => rwa [List.filter_cons_of_neg (by simp [hnone])]
  | @part seen m rest p hsome hunseen hrest ih =>
      rw [List.filter_cons_of_pos (by simp [hsome]), List.map_cons]
      refine List.nodup_cons.mpr ⟨fun hmem => ?_, ih⟩
      obtain ⟨m', hm', hkey⟩ := List.mem_map.mp hmem
      exact hrest.unseen (List.mem_of_mem_filter hm') (hkey ▸ hsome) (List.mem_cons_self ..)

end Fresh

/-! ### What a text stands for -/

/-- What a text stands for, however deep it is. -/
def Raw.Means (raw : Raw) (j : Json) : Prop := raw.value .value = .ok j

/-- What the items of an array stand for. -/
def Raw.Items.Mean (items : Raw.Items) (js : List Json) : Prop := items.values .value = .ok js

/-- The members of an object as they are written, each with what its value stands for. -/
def Raw.Members.Write (members : Raw.Members) (pairs : List (String × Json)) : Prop :=
  members.entries (Raw.value .value) = .ok pairs

theorem Raw.Items.mean_item {head : Raw} {rest : Raw.Items} {js : List Json} :
    (Raw.Items.item head rest).Mean js ↔ ∃ j js', head.Means j ∧ rest.Mean js' ∧ js = j :: js' := by
  unfold Raw.Items.Mean Raw.Means
  rw [Raw.Items.values, bind_eq_ok]
  constructor
  · rintro ⟨j, hj, h⟩
    obtain ⟨js', hjs', h⟩ := bind_eq_ok.mp h
    cases h
    exact ⟨j, js', hj, hjs', rfl⟩
  · rintro ⟨j, js', hj, hjs', rfl⟩
    exact ⟨j, hj, bind_eq_ok.mpr ⟨js', hjs', rfl⟩⟩

theorem Raw.Members.entries_member {α : Type} {read : Raw → Except Fault α} {key : Raw.Key}
    {value : Raw} {rest : Raw.Members} {es : List (String × α)} :
    (Raw.Members.member key value rest).entries read = .ok es ↔
      ∃ k a es', key.read = .ok k ∧ read value = .ok a ∧ rest.entries read = .ok es' ∧
        es = (k, a) :: es' := by
  rw [Raw.Members.entries, bind_eq_ok]
  constructor
  · rintro ⟨k, hk, h⟩
    obtain ⟨a, ha, h⟩ := bind_eq_ok.mp h
    obtain ⟨es', hes', h⟩ := bind_eq_ok.mp h
    cases h
    exact ⟨k, a, es', hk, ha, hes', rfl⟩
  · rintro ⟨k, a, es', hk, ha, hes', rfl⟩
    exact ⟨k, hk, bind_eq_ok.mpr ⟨a, ha, bind_eq_ok.mpr ⟨es', hes', rfl⟩⟩⟩

theorem Raw.Key.read_eq_ok {key : Raw.Key} {k : String} :
    key.read = .ok k ↔ key = .text k := by
  cases key with
  | text k' => exact ⟨fun h => by cases h; rfl, fun h => by cases h; rfl⟩
  | unpaired => constructor <;> intro h <;> cases h
  | stray => constructor <;> intro h <;> cases h

theorem Raw.Members.write_member {key : Raw.Key} {value : Raw} {rest : Raw.Members}
    {pairs : List (String × Json)} : (Raw.Members.member key value rest).Write pairs ↔
      ∃ k j pairs', key = .text k ∧ value.Means j ∧ rest.Write pairs' ∧
        pairs = (k, j) :: pairs' := by
  unfold Raw.Members.Write Raw.Means
  rw [Raw.Members.entries_member]
  simp only [Raw.Key.read_eq_ok]

/-- Reading members one after the other merges them in the order of writing. -/
theorem Raw.Members.values_eq_ok {o : Origin} :
    ∀ {members : Raw.Members} {seen ms : List (String × Json)},
      members.values o seen = .ok ms ↔
        ∃ pairs, members.entries (Raw.value o) = .ok pairs ∧ ms = mergeMembers seen pairs
  | .close, seen, ms => by
      constructor
      · intro h
        cases h
        exact ⟨[], rfl, rfl⟩
      · rintro ⟨_, h, rfl⟩
        cases h
        rfl
  | .broken _ _, _, _ => by
      constructor
      · intro h
        cases h
      · rintro ⟨_, h, _⟩
        cases h
  | .member key value rest, seen, ms => by
      rw [Raw.Members.values, bind_eq_ok]
      simp only [bind_eq_ok, Raw.Members.values_eq_ok, Raw.Members.entries_member]
      constructor
      · rintro ⟨k, hk, j, hj, pairs, hpairs, rfl⟩
        exact ⟨(k, j) :: pairs, ⟨k, j, pairs, hk, hj, hpairs, rfl⟩, rfl⟩
      · rintro ⟨_, ⟨k, j, pairs, hk, hj, hpairs, rfl⟩, rfl⟩
        exact ⟨k, hk, j, hj, pairs, hpairs, rfl⟩

theorem Raw.means_array {items : Raw.Items} {j : Json} :
    (Raw.array items).Means j ↔ ∃ js, items.Mean js ∧ j = .array js := by
  show (items.values .value >>= fun js => pure (.array js)) = .ok j ↔ _
  rw [bind_eq_ok]
  exact exists_congr fun js => and_congr_right fun _ =>
    ⟨fun h => by cases h; rfl, fun h => by rw [h]; rfl⟩

theorem Raw.means_object {members : Raw.Members} {j : Json} :
    (Raw.object members).Means j ↔
      ∃ pairs, members.Write pairs ∧ j = .object (mergeMembers [] pairs) := by
  show (members.values .value [] >>= fun ms => pure (.object ms)) = .ok j ↔ _
  rw [bind_eq_ok]
  constructor
  · rintro ⟨ms, hms, h⟩
    cases h
    obtain ⟨pairs, hpairs, rfl⟩ := Raw.Members.values_eq_ok.mp hms
    exact ⟨pairs, hpairs, rfl⟩
  · rintro ⟨pairs, hpairs, rfl⟩
    exact ⟨_, Raw.Members.values_eq_ok.mpr ⟨pairs, hpairs, rfl⟩, rfl⟩

/-- Null alone stands for null. -/
theorem Raw.Means.toRaw_ne_null {raw : Raw} {j : Json} (h : raw.Means j) (hraw : raw ≠ .null) :
    j.toRaw ≠ .null := by
  intro hnull
  cases j with
  | null =>
      cases raw with
      | null => exact hraw rfl
      | array items =>
          obtain ⟨js, -, h⟩ := Raw.means_array.mp h
          cases h
      | object members =>
          obtain ⟨pairs, -, h⟩ := Raw.means_object.mp h
          cases h
      | number n => cases n <;> cases h
      | string s => cases s <;> cases h
      | bool _ | broken _ _ _ => cases h
  | _ => cases hnull

/-! ### Limits -/

mutual

/-- A text that is read within limits is read as the same value without them. -/
theorem Raw.means_of_value {o : Origin} :
    ∀ {raw : Raw} {j : Json}, raw.value o = .ok j → raw.Means j
  | .null, _, h => h
  | .bool _, _, h => h
  | .number (some _), _, h => h
  | .number none, _, h => h
  | .string (some _), _, h => h
  | .string none, _, h => h
  | .array items, j, h => by
      rw [Raw.value] at h
      obtain ⟨o', -, h⟩ := bind_eq_ok.mp h
      obtain ⟨js, hjs, h⟩ := bind_eq_ok.mp h
      cases h
      exact Raw.means_array.mpr ⟨js, Raw.Items.mean_of_values hjs, rfl⟩
  | .object members, j, h => by
      rw [Raw.value] at h
      obtain ⟨o', -, h⟩ := bind_eq_ok.mp h
      obtain ⟨ms, hms, h⟩ := bind_eq_ok.mp h
      cases h
      obtain ⟨pairs, hpairs, rfl⟩ := Raw.Members.values_eq_ok.mp hms
      exact Raw.means_object.mpr ⟨pairs, Raw.Members.write_of_entries hpairs, rfl⟩
  | .broken _ _ _, _, h => h

theorem Raw.Items.mean_of_values {o : Origin} :
    ∀ {items : Raw.Items} {js : List Json}, items.values o = .ok js → items.Mean js
  | .close, _, h => h
  | .broken _, _, h => h
  | .item head rest, js, h => by
      rw [Raw.Items.values] at h
      obtain ⟨j, hj, h⟩ := bind_eq_ok.mp h
      obtain ⟨js', hjs', h⟩ := bind_eq_ok.mp h
      cases h
      exact Raw.Items.mean_item.mpr
        ⟨j, js', Raw.means_of_value hj, Raw.Items.mean_of_values hjs', rfl⟩

theorem Raw.Members.write_of_entries {o : Origin} :
    ∀ {members : Raw.Members} {pairs : List (String × Json)},
      members.entries (Raw.value o) = .ok pairs → members.Write pairs
  | .close, _, h => h
  | .broken _ _, _, h => h
  | .member key value rest, pairs, h => by
      obtain ⟨k, j, pairs', hk, hj, hpairs', rfl⟩ := Raw.Members.entries_member.mp h
      exact Raw.Members.entries_member.mpr ⟨k, j, pairs', hk, Raw.means_of_value hj,
        Raw.Members.write_of_entries hpairs', rfl⟩

end

/-! ### Values that are written out -/

/-- Members that stand for themselves when they are written out are written as they are. -/
theorem write_toRawMembers {ms : List (String × Json)} (h : ∀ m ∈ ms, m.2.toRaw.Means m.2) :
    (toRawMembers ms).Write ms := by
  induction ms with
  | nil => rfl
  | cons m rest ih =>
      obtain ⟨k, j⟩ := m
      exact Raw.Members.write_member.mpr ⟨k, j, rest, rfl, h _ (List.mem_cons_self ..),
        ih fun m hm => h m (List.mem_cons_of_mem _ hm), rfl⟩

mutual

/-- **A value that was read stands for itself when it is written out.** -/
theorem means_toRaw : ∀ {raw : Raw} {j : Json}, raw.Means j → j.toRaw.Means j
  | .null, _, h => by cases h; rfl
  | .bool _, _, h => by cases h; rfl
  | .number (some _), _, h => by cases h; rfl
  | .number none, _, h => by cases h
  | .string (some _), _, h => by cases h; rfl
  | .string none, _, h => by cases h
  | .array items, _, h => by
      obtain ⟨js, hjs, rfl⟩ := Raw.means_array.mp h
      exact Raw.means_array.mpr ⟨js, mean_toRawItems hjs, rfl⟩
  | .object members, _, h => by
      obtain ⟨pairs, hpairs, rfl⟩ := Raw.means_object.mp h
      have hkeys : ((mergeMembers [] pairs).map Prod.fst).Nodup :=
        nodup_keys_mergeMembers List.nodup_nil
      refine Raw.means_object.mpr ⟨mergeMembers [] pairs, write_toRawMembers fun m hm => ?_, ?_⟩
      · rcases mem_mergeMembers hm with hm | hm
        · exact absurd hm List.not_mem_nil
        · exact means_toRaw_of_mem hpairs m hm
      · rw [mergeMembers_nil_of_nodup hkeys]
  | .broken _ _ _, _, h => by cases h

theorem mean_toRawItems : ∀ {items : Raw.Items} {js : List Json}, items.Mean js →
    (toRawItems js).Mean js
  | .close, _, h => by cases h; rfl
  | .broken _, _, h => by cases h
  | .item head rest, _, h => by
      obtain ⟨j, js, hj, hjs, rfl⟩ := Raw.Items.mean_item.mp h
      exact Raw.Items.mean_item.mpr ⟨j, js, means_toRaw hj, mean_toRawItems hjs, rfl⟩

theorem means_toRaw_of_mem : ∀ {members : Raw.Members} {pairs : List (String × Json)},
    members.Write pairs → ∀ m ∈ pairs, m.2.toRaw.Means m.2
  | .close, _, h => by cases h; exact fun _ hm => absurd hm List.not_mem_nil
  | .broken _ _, _, h => by cases h
  | .member key value rest, _, h => by
      obtain ⟨k, j, pairs, -, hj, hpairs, rfl⟩ := Raw.Members.write_member.mp h
      intro m hm
      rcases List.mem_cons.mp hm with rfl | hm
      · exact means_toRaw hj
      · exact means_toRaw_of_mem hpairs m hm

end

theorem values_toRawMembers {raw : Raw} {ms : List (String × Json)} (h : raw.Means (.object ms)) :
    (toRawMembers ms).values .value [] = .ok ms := by
  obtain ⟨pairs, hpairs, hms⟩ := Raw.means_object.mp (means_toRaw h)
  exact Raw.Members.values_eq_ok.mpr ⟨pairs, hpairs, Json.object.inj hms⟩

/-! ### Readers -/

/-- What one reader finds in a text, the other finds in the value of the text. -/
def Agree {α : Type} (read read' : Raw → Except Fault α) : Prop :=
  ∀ (raw : Raw) (j : Json) (a : α), raw.Means j → read raw = .ok a → read' j.toRaw = .ok a

/-- Readers that agree on values find the same in an object that has them as members, as it
is written. -/
theorem Agree.entries {α : Type} {read read' : Raw → Except Fault α} (hread : Agree read read') :
    ∀ {members : Raw.Members} {pairs : List (String × Json)} {es : List (String × α)},
      members.Write pairs → members.entries read = .ok es →
        (toRawMembers pairs).entries read' = .ok es ∧ es.map Prod.fst = pairs.map Prod.fst
  | .close, _, _, hwrite, h => by
      cases hwrite
      cases h
      exact ⟨rfl, rfl⟩
  | .broken _ _, _, _, hwrite, _ => by cases hwrite
  | .member key value rest, _, _, hwrite, h => by
      obtain ⟨k, j, pairs, rfl, hj, hpairs, rfl⟩ := Raw.Members.write_member.mp hwrite
      obtain ⟨_, a, es, hk, ha, hes, rfl⟩ := Raw.Members.entries_member.mp h
      cases hk
      obtain ⟨hrest, hkeys⟩ := hread.entries hpairs hes
      have ha' := hread value j a hj ha
      exact ⟨Raw.Members.entries_member.mpr ⟨k, a, es, rfl, ha', hrest, rfl⟩,
        by rw [List.map_cons, List.map_cons, hkeys]⟩

end Statechart.Json
