/-
Finite maps kept as lists of pairs with strictly ascending keys.

Entries are listed in the order of their keys, whatever order they were written
in, and writing a key again replaces its value.  Reading after a write is
described by `get?_insert` and `get?_erase`.
-/

namespace Statechart

/-- A finite map, listed with strictly ascending keys. -/
structure SortedMap (κ : Type) (β : Type) [Ord κ] where
  /-- The entries, least key first. -/
  entries : List (κ × β)
  /-- Each key comes strictly before every later one. -/
  ascending : entries.Pairwise (fun a b => compare a.1 b.1 = .lt)

namespace SortedMap

/-- Writes an entry into a list with ascending keys. -/
def put {κ β : Type} [Ord κ] (k : κ) (v : β) : List (κ × β) → List (κ × β)
  | [] => [(k, v)]
  | (k', v') :: rest =>
    match compare k k' with
    | .lt => (k, v) :: (k', v') :: rest
    | .eq => (k, v) :: rest
    | .gt => (k', v') :: put k v rest

section

variable {κ β : Type} [Ord κ]

/-- The map without entries. -/
def empty : SortedMap κ β := ⟨[], List.Pairwise.nil⟩

instance : EmptyCollection (SortedMap κ β) := ⟨empty⟩

instance : Inhabited (SortedMap κ β) := ⟨empty⟩

/-- The entries for which `keep` holds. -/
def filter (m : SortedMap κ β) (keep : κ → β → Bool) : SortedMap κ β :=
  ⟨m.entries.filter (fun e => keep e.1 e.2), m.ascending.sublist List.filter_sublist⟩

/-- Removes the entry at `k`. -/
def erase [DecidableEq κ] (m : SortedMap κ β) (k : κ) : SortedMap κ β :=
  m.filter (fun k' _ => decide (k' ≠ k))

/-- What is written at `k`. -/
def get? [DecidableEq κ] (m : SortedMap κ β) (k : κ) : Option β :=
  (m.entries.find? (fun e => decide (e.1 = k))).map Prod.snd

/-- Whether something is written at `k`. -/
def contains [DecidableEq κ] (m : SortedMap κ β) (k : κ) : Bool :=
  (m.get? k).isSome

/-- The keys in ascending order. -/
def keys (m : SortedMap κ β) : List κ :=
  m.entries.map Prod.fst

/-- Whether there is no entry. -/
def isEmpty (m : SortedMap κ β) : Bool :=
  m.entries.isEmpty

/-- The number of entries. -/
def size (m : SortedMap κ β) : Nat :=
  m.entries.length

@[simp] theorem get?_empty [DecidableEq κ] {k : κ} : (empty : SortedMap κ β).get? k = none := rfl

theorem mem_of_mem_put {k : κ} {v : β} {l : List (κ × β)} {e : κ × β}
    (h : e ∈ put k v l) : e = (k, v) ∨ e ∈ l := by
  induction l with
  | nil => simpa [put] using h
  | cons head rest ih =>
    obtain ⟨k', v'⟩ := head
    unfold put at h
    split at h
    · exact List.mem_cons.1 h
    · rcases List.mem_cons.1 h with h | h
      · exact Or.inl h
      · exact Or.inr (List.mem_cons_of_mem _ h)
    · rcases List.mem_cons.1 h with h | h
      · exact Or.inr (h ▸ List.mem_cons_self ..)
      · rcases ih h with h | h
        · exact Or.inl h
        · exact Or.inr (List.mem_cons_of_mem _ h)

/-- Nothing is read at a removed key, and the other keys are left alone. -/
@[simp] theorem get?_erase [DecidableEq κ] {m : SortedMap κ β} {k k' : κ} :
    (m.erase k).get? k' = if k = k' then none else m.get? k' := by
  obtain ⟨l, hl⟩ := m
  unfold get? erase filter
  simp only
  clear hl
  induction l with
  | nil => simp
  | cons head rest ih =>
    obtain ⟨k₁, v₁⟩ := head
    by_cases h₁ : k₁ = k
    · subst h₁
      by_cases h : k₁ = k'
      · simp [h]
      · simpa [h] using ih
    · by_cases h₂ : k₁ = k'
      · subst h₂
        have h : ¬ k = k₁ := fun h => h₁ h.symm
        simp [h₁, h]
      · simpa [h₁, h₂] using ih

end

section

variable {κ β : Type} [Ord κ] [Std.TransOrd κ] [Std.LawfulEqOrd κ]

theorem ascending_put {k : κ} {v : β} {l : List (κ × β)}
    (h : l.Pairwise (fun a b => compare a.1 b.1 = .lt)) :
    (put k v l).Pairwise (fun a b => compare a.1 b.1 = .lt) := by
  induction l with
  | nil => simp [put]
  | cons head rest ih =>
    obtain ⟨k', v'⟩ := head
    obtain ⟨hhead, hrest⟩ := List.pairwise_cons.1 h
    unfold put
    split
    · next hk =>
      refine List.pairwise_cons.2 ⟨?_, h⟩
      intro e he
      rcases List.mem_cons.1 he with rfl | he
      · exact hk
      · exact Std.TransCmp.lt_trans hk (hhead e he)
    · next hk =>
      have hkk : k = k' := Std.LawfulEqCmp.eq_of_compare hk
      exact List.pairwise_cons.2 ⟨fun e he => hkk ▸ hhead e he, hrest⟩
    · next hk =>
      refine List.pairwise_cons.2 ⟨?_, ih hrest⟩
      intro e he
      rcases mem_of_mem_put he with rfl | he
      · exact Std.OrientedCmp.gt_iff_lt.1 hk
      · exact hhead e he

/-- Writes `v` at `k`, replacing what was there. -/
def insert (m : SortedMap κ β) (k : κ) (v : β) : SortedMap κ β :=
  ⟨put k v m.entries, ascending_put m.ascending⟩

/-- Writes every pair of a list in turn, so that the last one of a key stays. -/
def ofList (l : List (κ × β)) : SortedMap κ β :=
  l.foldl (fun m e => m.insert e.1 e.2) empty

omit [Std.TransOrd κ] in
theorem find?_put [DecidableEq κ] {k k' : κ} {v : β} {l : List (κ × β)} :
    ((put k v l).find? (fun e => decide (e.1 = k'))).map Prod.snd =
      if k = k' then some v
      else (l.find? (fun e => decide (e.1 = k'))).map Prod.snd := by
  induction l with
  | nil => by_cases h : k = k' <;> simp [put, h]
  | cons head rest ih =>
    obtain ⟨k₁, v₁⟩ := head
    unfold put
    split
    · by_cases h : k = k' <;> simp [h]
    · next hk =>
      have hkk : k = k₁ := Std.LawfulEqCmp.eq_of_compare hk
      subst hkk
      by_cases h : k = k' <;> simp [h]
    · next hk =>
      by_cases h₁ : k₁ = k'
      · have h : ¬ k = k' := by
          intro h
          have hself : compare k' k' = .eq := Std.ReflCmp.compare_self
          rw [h, h₁, hself] at hk
          exact Ordering.noConfusion hk
        simp [h, h₁]
      · simpa [h₁] using ih

omit [Std.TransOrd κ] in
/-- What is read at a key is what an entry has written there. -/
theorem get?_eq_some_iff [DecidableEq κ] {m : SortedMap κ β} {k : κ} {v : β} :
    m.get? k = some v ↔ (k, v) ∈ m.entries := by
  obtain ⟨l, hl⟩ := m
  unfold get?
  dsimp only
  induction l with
  | nil => simp
  | cons head rest ih =>
    obtain ⟨k₁, v₁⟩ := head
    obtain ⟨hhead, hrest⟩ := List.pairwise_cons.1 hl
    by_cases h : k₁ = k
    · subst h
      have hnot : (k₁, v) ∉ rest := by
        intro hmem
        have hlt : compare k₁ k₁ = .lt := hhead (k₁, v) hmem
        have hself : compare k₁ k₁ = .eq := Std.ReflCmp.compare_self
        rw [hself] at hlt
        exact Ordering.noConfusion hlt
      simp [hnot, eq_comm]
    · have hne : (k, v) ≠ (k₁, v₁) := fun heq => h (congrArg Prod.fst heq).symm
      simpa [h, hne] using ih hrest

/-- A map is determined by what is read at its keys. -/
theorem ext [DecidableEq κ] {m m' : SortedMap κ β} (h : ∀ k, m.get? k = m'.get? k) : m = m' := by
  have hmem : ∀ e : κ × β, e ∈ m.entries ↔ e ∈ m'.entries := by
    rintro ⟨k, v⟩
    rw [← get?_eq_some_iff, h, get?_eq_some_iff]
  have hself : ∀ k : κ, compare k k ≠ .lt := by
    intro k
    have hk : compare k k = .eq := Std.ReflCmp.compare_self
    rw [hk]
    exact Ordering.noConfusion
  have hnodup : ∀ m : SortedMap κ β, m.entries.Nodup := fun m =>
    m.ascending.imp fun {a b} hlt => by
      rintro rfl
      exact hself a.1 hlt
  have hperm := (List.perm_ext_iff_of_nodup (hnodup m) (hnodup m')).mpr hmem
  have hanti : ∀ a b : κ × β, a ∈ m.entries → b ∈ m'.entries → compare a.1 b.1 = .lt →
      compare b.1 a.1 = .lt → a = b := fun a b _ _ hab hba =>
    absurd (Std.TransCmp.lt_trans hab hba) (hself a.1)
  have hentries : m.entries = m'.entries := hperm.eq_of_pairwise hanti m.ascending m'.ascending
  cases m
  cases m'
  cases hentries
  rfl

/-- A write is read back at its key and leaves the other keys alone. -/
@[simp] theorem get?_insert [DecidableEq κ] {m : SortedMap κ β} {k k' : κ} {v : β} :
    (m.insert k v).get? k' = if k = k' then some v else m.get? k' :=
  find?_put

end

end SortedMap

end Statechart
