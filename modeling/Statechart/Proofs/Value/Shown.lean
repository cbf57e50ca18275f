/-
What a state value shows.

`StateValue.ofNode` walks down from a node.  At a compound node it goes on with the first
active region, at a parallel node with every region, active or not.  `ShowStep` is one
step of that walk and `Shows` the walk; the two are to writing a value what `DefaultStep`
and `Descent` are to entering a node.

A value can be written exactly when every compound node that the walk meets has an
active region (`exists_ofNode_iff`), and the ids of its leaves are those of the nodes
where the walk ends (`mem_leafIds_iff`).  Both are inductions on the number of nodes
after a node, as the walk itself is.
-/
import Mathlib.Logic.Relation
import Statechart.Proofs.Outcome
import Statechart.Proofs.Tree.Loaded
import Statechart.Value.Configuration

namespace Statechart

open Statechart.Tree Outcome

variable {t : Tree} {config : NodeSet} {i n : Nat}

/-- One step of the walk that writes a value. -/
inductive ShowStep (t : Tree) (config : NodeSet) (a b : Nat) : Prop
  | active (kind : t.kind a = .compound)
      (child : (t.regions a).find? (fun c => decide (c ∈ config)) = some b)
  | region (kind : t.kind a = .parallel) (child : b ∈ t.regions a)

/-- The walk that writes a value comes from one node to another. -/
def Shows (t : Tree) (config : NodeSet) : Nat → Nat → Prop :=
  Relation.ReflTransGen (ShowStep t config)

/-- The walk goes no further: the node is a leaf, or a parallel node without regions. -/
def Ends (t : Tree) (i : Nat) : Prop :=
  t.kind i ≠ .compound ∧ (t.kind i = .parallel → t.regions i = [])

/-- Among nodes of which one is active an active one is found. -/
theorem exists_active_of_mem {l : List Nat} (h : ∃ c ∈ l, c ∈ config) :
    ∃ b, l.find? (fun c => decide (c ∈ config)) = some b := by
  obtain ⟨c, hc, hactive⟩ := h
  cases hfind : l.find? fun c => decide (c ∈ config) with
  | none => exact absurd (decide_eq_true hactive) (List.find?_eq_none.mp hfind c hc)
  | some b => exact ⟨b, rfl⟩

theorem active_of_find {l : List Nat} {b : Nat}
    (h : l.find? (fun c => decide (c ∈ config)) = some b) : b ∈ l ∧ b ∈ config :=
  ⟨List.mem_of_find?_eq_some h, by simpa using List.find?_some h⟩

theorem ShowStep.mem_regions {a b : Nat} (h : ShowStep t config a b) : b ∈ t.regions a := by
  cases h with
  | active _ child => exact List.mem_of_find?_eq_some child
  | region _ child => exact child

theorem ShowStep.parent (w : t.WellFormed) {a b : Nat} (h : ShowStep t config a b) :
    t.parent b = some a :=
  (w.mem_regions.mp h.mem_regions).1

theorem shows_iff {a b : Nat} :
    Shows t config a b ↔ b = a ∨ ∃ m, ShowStep t config a m ∧ Shows t config m b := by
  rw [Shows, Relation.ReflTransGen.cases_head_iff]
  exact ⟨fun h => h.imp_left Eq.symm, fun h => h.imp_left Eq.symm⟩

theorem Shows.within (w : t.WellFormed) {a b : Nat} (h : Shows t config a b) : t.Within b a := by
  induction h with
  | refl => exact within_self
  | tail _ hstep ih => exact (below_of_parent (hstep.parent w)).within.trans ih

/-- Where a walk ends it has come to a node of its own. -/
theorem eq_of_shows_of_ends {b : Nat} (h : Shows t config i b) (hi : Ends t i) : b = i := by
  rcases shows_iff.mp h with h | ⟨m, hstep, _⟩
  · exact h
  · cases hstep with
    | active kind _ => exact absurd kind hi.1
    | region kind child =>
        rw [hi.2 kind] at child
        exact absurd child List.not_mem_nil

/-! ### Writing a value -/

namespace StateValue

theorem ofNode_compound {c : Nat} (h : t.kind i = .compound)
    (hc : (t.regions i).find? (fun c => decide (c ∈ config)) = some c) :
    ofNode t config i =
      if t.isLeaf c then .ok (.leaf (t.node c).key)
      else do
        let below ← ofNode t config c
        return .branch [((t.node c).key, below)] := by
  rw [ofNode]
  simp only [h]
  split
  · rename_i hnone
    rw [hc] at hnone
    cases hnone
  · rename_i b hb
    rw [hc] at hb
    cases hb
    rfl

theorem ofNode_compound_none (h : t.kind i = .compound)
    (hc : (t.regions i).find? (fun c => decide (c ∈ config)) = none) :
    ofNode t config i = .error (.noActiveChild (t.node i).id) := by
  rw [ofNode]
  simp only [h]
  split
  · rfl
  · rename_i b hb
    rw [hc] at hb
    cases hb

/-- An entry of a mapping: a region with what is active below it. -/
def entryOf (t : Tree) (config : NodeSet) (c : Nat) :
    Except TransitionFault (String × StateValue) :=
  do
    let below ← ofNode t config c
    return ((t.node c).key, below)

theorem ofNode_parallel (h : t.kind i = .parallel) :
    ofNode t config i = (t.regions i).mapM (entryOf t config) >>= fun entries =>
      .ok (ofEntries entries) := by
  rw [ofNode]
  simp only [h]
  have hattach : (t.regions i).attach.mapM (fun c => entryOf t config c.1) =
      (t.regions i).mapM (entryOf t config) := by
    rw [List.mapM_subtype (g := entryOf t config) (fun _ _ => rfl), List.unattach_attach]
  rw [← hattach]
  rfl

theorem ofNode_end (h : t.kind i ≠ .compound) (h' : t.kind i ≠ .parallel) :
    ofNode t config i = .ok (.branch []) := by
  rw [ofNode]
  split
  · rename_i hk; exact absurd hk h
  · rename_i hk; exact absurd hk h'
  · rfl

theorem exists_ofNode_compound {c : Nat} (h : t.kind i = .compound)
    (hc : (t.regions i).find? (fun c => decide (c ∈ config)) = some c) :
    (∃ v, ofNode t config i = .ok v) ↔ ∃ v, ofNode t config c = .ok v := by
  rw [ofNode_compound h hc]
  by_cases hleaf : t.isLeaf c = true
  · rw [if_pos hleaf, ofNode_end]
    · exact ⟨fun _ => ⟨_, rfl⟩, fun _ => ⟨_, rfl⟩⟩
    · intro hk; rw [isLeaf, hk] at hleaf; cases hleaf
    · intro hk; rw [isLeaf, hk] at hleaf; cases hleaf
  · rw [if_neg hleaf]
    constructor
    · rintro ⟨v, h⟩
      obtain ⟨below, hbelow, _⟩ := bind_eq_ok.mp h
      exact ⟨below, hbelow⟩
    · rintro ⟨below, hbelow⟩
      exact ⟨_, bind_eq_ok.mpr ⟨below, hbelow, rfl⟩⟩

theorem exists_ofNode_parallel (h : t.kind i = .parallel) :
    (∃ v, ofNode t config i = .ok v) ↔ ∀ c ∈ t.regions i, ∃ v, ofNode t config c = .ok v := by
  rw [ofNode_parallel h]
  constructor
  · rintro ⟨v, h⟩ c hc
    obtain ⟨entries, hentries, _⟩ := bind_eq_ok.mp h
    obtain ⟨entry, hentry⟩ := exists_of_mapM hentries hc
    obtain ⟨below, hbelow, _⟩ := bind_eq_ok.mp hentry
    exact ⟨below, hbelow⟩
  · intro h
    obtain ⟨entries, hentries⟩ := exists_mapM (f := entryOf t config) (l := t.regions i)
      fun c hc => by
        obtain ⟨below, hbelow⟩ := h c hc
        exact ⟨_, bind_eq_ok.mpr ⟨below, hbelow, rfl⟩⟩
    exact ⟨_, bind_eq_ok.mpr ⟨entries, hentries, rfl⟩⟩

/-- The walk goes from a compound node to its active child alone. -/
theorem showStep_compound {b c : Nat} (hcompound : t.kind i = .compound)
    (hfind : (t.regions i).find? (fun c => decide (c ∈ config)) = some c) :
    ShowStep t config i b ↔ b = c := by
  constructor
  · intro h
    cases h with
    | active _ hb => rw [hfind] at hb; cases hb; rfl
    | region hk _ => rw [hcompound] at hk; cases hk
  · rintro rfl
    exact .active hcompound hfind

/-- One step of the walk: what it has to find, and that it can go on. -/
theorem exists_ofNode_step : (∃ v, ofNode t config i = .ok v) ↔
    (t.kind i = .compound → ∃ c ∈ t.regions i, c ∈ config) ∧
      ∀ c, ShowStep t config i c → ∃ v, ofNode t config c = .ok v := by
  by_cases hcompound : t.kind i = .compound
  · cases hfind : (t.regions i).find? fun c => decide (c ∈ config) with
    | none =>
        rw [ofNode_compound_none hcompound hfind]
        constructor
        · rintro ⟨v, h⟩; cases h
        · rintro ⟨h, _⟩
          obtain ⟨c, hc⟩ := exists_active_of_mem (h hcompound)
          rw [hfind] at hc
          cases hc
    | some c =>
        rw [exists_ofNode_compound hcompound hfind]
        constructor
        · intro h
          refine ⟨fun _ => ⟨c, active_of_find hfind⟩, fun b hstep => ?_⟩
          rwa [(showStep_compound hcompound hfind).mp hstep]
        · rintro ⟨_, h⟩
          exact h c (.active hcompound hfind)
  by_cases hparallel : t.kind i = .parallel
  · rw [exists_ofNode_parallel hparallel]
    constructor
    · intro h
      refine ⟨fun hk => absurd hk hcompound, fun c hstep => ?_⟩
      exact h c hstep.mem_regions
    · rintro ⟨_, h⟩ c hc
      exact h c (.region hparallel hc)
  · rw [ofNode_end hcompound hparallel]
    constructor
    · rintro _
      refine ⟨fun hk => absurd hk hcompound, fun c hstep => ?_⟩
      cases hstep with
      | active hk _ => exact absurd hk hcompound
      | region hk _ => exact absurd hk hparallel
    · rintro _
      exact ⟨_, rfl⟩

/-- **When a value can be written**: every compound node that it shows has an active region. -/
theorem exists_ofNode_iff (w : t.WellFormed) : (∃ v, ofNode t config i = .ok v) ↔
    ∀ n, Shows t config i n → t.kind n = .compound → ∃ c ∈ t.regions n, c ∈ config := by
  induction hk : t.size - i using Nat.strong_induction_on generalizing i with
  | _ k ih =>
      have hchild : ∀ c, ShowStep t config i c → ((∃ v, ofNode t config c = .ok v) ↔
          ∀ n, Shows t config c n → t.kind n = .compound → ∃ c ∈ t.regions n, c ∈ config) := by
        intro c hstep
        have := lt_of_child (w.mem_children.mpr (hstep.parent w))
        exact ih (t.size - c) (by omega) rfl
      rw [exists_ofNode_step]
      constructor
      · rintro ⟨h, hbelow⟩ n hn
        rcases shows_iff.mp hn with rfl | ⟨c, hstep, hn⟩
        · exact h
        · exact (hchild c hstep).mp (hbelow c hstep) n hn
      · intro h
        exact ⟨h i .refl, fun c hstep => (hchild c hstep).mpr fun n hn => h n (.head hstep hn)⟩

/-! ### The leaves of a value -/

theorem join_eq {base key : String} (h : base ≠ "") : join base key = base ++ "." ++ key := by
  rw [join, if_neg (by rwa [String.isEmpty_iff])]

/-- Writing an entry whose key is new adds it. -/
theorem mem_putEntry {key : String} {value : StateValue} {l : List (String × StateValue)}
    (h : ∀ e ∈ l, e.1 ≠ key) {e : String × StateValue} :
    e ∈ putEntry key value l ↔ e = (key, value) ∨ e ∈ l := by
  induction l with
  | nil => simp [putEntry]
  | cons head rest ih =>
      obtain ⟨k, v⟩ := head
      have hk : k ≠ key := h (k, v) (List.mem_cons_self ..)
      unfold putEntry
      split
      · simp
      · rename_i heq
        exact absurd (Std.LawfulEqCmp.eq_of_compare heq).symm hk
      · rw [List.mem_cons, ih fun e he => h e (List.mem_cons_of_mem _ he), List.mem_cons]
        constructor
        · rintro (h | h | h)
          · exact Or.inr (Or.inl h)
          · exact Or.inl h
          · exact Or.inr (Or.inr h)
        · rintro (h | h | h)
          · exact Or.inr (Or.inl h)
          · exact Or.inl h
          · exact Or.inr (Or.inr h)

theorem mem_foldl_putEntry {l : List (String × StateValue)} (hnodup : (l.map Prod.fst).Nodup)
    {e : String × StateValue} : ∀ {acc : List (String × StateValue)},
      (∀ a ∈ acc, ∀ b ∈ l, a.1 ≠ b.1) →
        (e ∈ l.foldl (fun acc e => putEntry e.1 e.2 acc) acc ↔ e ∈ acc ∨ e ∈ l) := by
  induction l with
  | nil => intro acc _; simp
  | cons head rest ih =>
      intro acc hacc
      obtain ⟨hhead, hrest⟩ := List.nodup_cons.mp hnodup
      have hput : ∀ {e}, e ∈ putEntry head.1 head.2 acc ↔ e = head ∨ e ∈ acc :=
        mem_putEntry fun a ha => hacc a ha head (List.mem_cons_self ..)
      have hacc' : ∀ a ∈ putEntry head.1 head.2 acc, ∀ b ∈ rest, a.1 ≠ b.1 := by
        intro a ha b hb
        rcases hput.mp ha with rfl | ha
        · intro heq
          exact hhead (heq ▸ List.mem_map_of_mem hb)
        · exact hacc a ha b (List.mem_cons_of_mem _ hb)
      rw [List.foldl_cons, ih hrest hacc', hput, List.mem_cons]
      constructor
      · rintro ((h | h) | h)
        · exact Or.inr (Or.inl h)
        · exact Or.inl h
        · exact Or.inr (Or.inr h)
      · rintro (h | h | h)
        · exact Or.inl (Or.inr h)
        · exact Or.inl (Or.inl h)
        · exact Or.inr h

theorem mem_leafIdsOf {base id : String} {l : List (String × StateValue)} :
    id ∈ leafIdsOf base l ↔ ∃ e ∈ l, id ∈ leafIds (join base e.1) e.2 := by
  induction l with
  | nil => simp [leafIdsOf]
  | cons head rest ih =>
      obtain ⟨key, value⟩ := head
      rw [leafIdsOf, List.mem_append, ih]
      simp

/-- The leaves of a mapping with distinct keys are those of its entries. -/
theorem mem_leafIds_ofEntries {base id : String} {l : List (String × StateValue)}
    (hnodup : (l.map Prod.fst).Nodup) (hne : l ≠ []) :
    id ∈ leafIds base (ofEntries l) ↔ ∃ e ∈ l, id ∈ leafIds (join base e.1) e.2 := by
  have hmem : ∀ {e}, e ∈ l.foldl (fun acc e => putEntry e.1 e.2 acc) [] ↔ e ∈ [] ∨ e ∈ l :=
    mem_foldl_putEntry hnodup (fun a ha => absurd ha List.not_mem_nil)
  unfold ofEntries
  generalize hentries : l.foldl (fun acc e => putEntry e.1 e.2 acc) [] = entries at hmem
  cases entries with
  | nil =>
      obtain ⟨e, he⟩ := List.exists_mem_of_ne_nil l hne
      exact absurd (hmem.mpr (Or.inr he)) List.not_mem_nil
  | cons head rest =>
      rw [leafIds, mem_leafIdsOf]
      constructor
      · rintro ⟨e, he, h⟩
        rcases hmem.mp he with he | he
        · exact absurd he List.not_mem_nil
        · exact ⟨e, he, h⟩
      · rintro ⟨e, he, h⟩
        exact ⟨e, hmem.mpr (Or.inr he), h⟩

/-- Where the walk ends at once, the only leaf is the node itself. -/
theorem leafIds_of_ends (h : Ends t i) {v : StateValue} (hv : ofNode t config i = .ok v)
    {base : String} : leafIds base v = [base] := by
  by_cases hparallel : t.kind i = .parallel
  · rw [ofNode_parallel hparallel, h.2 hparallel] at hv
    cases hv
    rfl
  · rw [ofNode_end h.1 hparallel] at hv
    cases hv
    rfl

theorem join_id (w : t.WellFormed) {c : Nat} (hi : i < t.size) (hc : t.parent c = some i) :
    join (t.node i).id (t.node c).key = (t.node c).id := by
  rw [join_eq (w.id_ne i hi), w.id_child hc]

theorem mem_entries {l : List Nat} {entries : List (String × StateValue)}
    (h : l.mapM (entryOf t config) = .ok entries) {e : String × StateValue} :
    e ∈ entries ↔ ∃ c ∈ l, e.1 = (t.node c).key ∧ ofNode t config c = .ok e.2 := by
  rw [mem_mapM h]
  refine exists_congr fun c => and_congr_right fun _ => ?_
  constructor
  · intro h
    obtain ⟨below, hbelow, h⟩ := bind_eq_ok.mp h
    cases h
    exact ⟨rfl, hbelow⟩
  · rintro ⟨hkey, hbelow⟩
    obtain ⟨key, below⟩ := e
    cases hkey
    exact bind_eq_ok.mpr ⟨below, hbelow, rfl⟩

theorem nodup_keys_of_mapM (w : t.WellFormed) {l : List Nat} (hnodup : l.Nodup)
    (hl : ∀ c ∈ l, t.parent c = some i) {entries : List (String × StateValue)}
    (h : l.mapM (entryOf t config) = .ok entries) : (entries.map Prod.fst).Nodup := by
  have hkeys : entries.map Prod.fst = l.map fun c => (t.node c).key := by
    have hall := mapM_eq_ok.mp h
    clear h hl hnodup
    induction hall with
    | nil => rfl
    | cons hb _ ih =>
        obtain ⟨below, _, hb⟩ := bind_eq_ok.mp hb
        cases hb
        rw [List.map_cons, List.map_cons, ih]
  rw [hkeys]
  refine (List.nodup_map_iff_inj_on hnodup).mpr fun b hb c hc hkey => ?_
  exact w.key_inj (hl b hb) (hl c hc) hkey

/-- The leaves of a compound node are those of its active child. -/
theorem mem_leafIds_compound {base id : String} {v : StateValue} (hcompound : t.kind i = .compound)
    (hv : ofNode t config i = .ok v) : id ∈ leafIds base v ↔ ∃ c, ShowStep t config i c ∧
      ∃ below, ofNode t config c = .ok below ∧ id ∈ leafIds (join base (t.node c).key) below := by
  cases hfind : (t.regions i).find? fun c => decide (c ∈ config) with
  | none =>
      rw [ofNode_compound_none hcompound hfind] at hv
      cases hv
  | some c =>
      simp only [showStep_compound hcompound hfind, exists_eq_left]
      rw [ofNode_compound hcompound hfind] at hv
      by_cases hleaf : t.isLeaf c = true
      · rw [if_pos hleaf] at hv
        cases hv
        have hc : ofNode t config c = .ok (.branch []) := by
          refine ofNode_end ?_ ?_ <;> intro hk <;> rw [isLeaf, hk] at hleaf <;> cases hleaf
        rw [hc]
        exact ⟨fun h => ⟨_, rfl, h⟩, by rintro ⟨_, ⟨rfl⟩, h⟩; exact h⟩
      · rw [if_neg hleaf] at hv
        obtain ⟨below, hc, hv⟩ := bind_eq_ok.mp hv
        cases hv
        rw [hc, leafIds, mem_leafIdsOf]
        simp

/-- The leaves of a parallel node are those of its regions. -/
theorem mem_leafIds_parallel (w : t.WellFormed) {base id : String} {v : StateValue}
    (hparallel : t.kind i = .parallel) (hne : t.regions i ≠ [])
    (hv : ofNode t config i = .ok v) : id ∈ leafIds base v ↔ ∃ c, ShowStep t config i c ∧
      ∃ below, ofNode t config c = .ok below ∧ id ∈ leafIds (join base (t.node c).key) below := by
  have hparent : ∀ c ∈ t.regions i, t.parent c = some i := fun c hc => (w.mem_regions.mp hc).1
  rw [ofNode_parallel hparallel] at hv
  obtain ⟨entries, hentries, hv⟩ := bind_eq_ok.mp hv
  cases hv
  have hentries_ne : entries ≠ [] := by
    rintro rfl
    obtain ⟨c, hc⟩ := List.exists_mem_of_ne_nil _ hne
    obtain ⟨entry, hentry⟩ := exists_of_mapM hentries hc
    exact absurd ((mem_mapM hentries).mpr ⟨c, hc, hentry⟩) List.not_mem_nil
  rw [mem_leafIds_ofEntries
    (nodup_keys_of_mapM w (w.nodup_regions i) hparent hentries) hentries_ne]
  constructor
  · rintro ⟨e, he, hid⟩
    obtain ⟨c, hc, hkey, hbelow⟩ := (mem_entries hentries).mp he
    rw [hkey] at hid
    exact ⟨c, .region hparallel hc, e.2, hbelow, hid⟩
  · rintro ⟨c, hstep, below, hbelow, hid⟩
    exact ⟨((t.node c).key, below),
      (mem_entries hentries).mpr ⟨c, hstep.mem_regions, rfl, hbelow⟩, hid⟩

/-- Where the walk goes on, the leaves are those of the nodes that it goes on to. -/
theorem mem_leafIds_step (w : t.WellFormed) {base id : String} {v : StateValue}
    (hends : ¬ Ends t i) (hv : ofNode t config i = .ok v) :
    id ∈ leafIds base v ↔ ∃ c, ShowStep t config i c ∧
      ∃ below, ofNode t config c = .ok below ∧ id ∈ leafIds (join base (t.node c).key) below := by
  by_cases hcompound : t.kind i = .compound
  · exact mem_leafIds_compound hcompound hv
  · have hparallel : t.kind i = .parallel := by
      by_contra h
      exact hends ⟨hcompound, fun hk => absurd hk h⟩
    exact mem_leafIds_parallel w hparallel (fun h => hends ⟨hcompound, fun _ => h⟩) hv

/-- **The leaves of a value** are the nodes where the walk ends. -/
theorem mem_leafIds_iff (w : t.WellFormed) (hi : i < t.size) {v : StateValue}
    (hv : ofNode t config i = .ok v) {id : String} : id ∈ leafIds (t.node i).id v ↔
      ∃ n, Shows t config i n ∧ Ends t n ∧ (t.node n).id = id := by
  induction hk : t.size - i using Nat.strong_induction_on generalizing i v with
  | _ k ih =>
      have hbelow : ∀ c, ShowStep t config i c → ∀ below, ofNode t config c = .ok below →
          (id ∈ leafIds (join (t.node i).id (t.node c).key) below ↔
            ∃ n, Shows t config c n ∧ Ends t n ∧ (t.node n).id = id) := by
        intro c hstep below hc
        have hlt := lt_of_child (w.mem_children.mpr (hstep.parent w))
        rw [join_id w hi (hstep.parent w)]
        exact ih (t.size - c) (by omega) hlt.2 hc rfl
      by_cases hends : Ends t i
      · rw [leafIds_of_ends hends hv, List.mem_singleton]
        constructor
        · rintro rfl
          exact ⟨i, .refl, hends, rfl⟩
        · rintro ⟨n, hn, _, rfl⟩
          rw [eq_of_shows_of_ends hn hends]
      · rw [mem_leafIds_step w hends hv]
        constructor
        · rintro ⟨c, hstep, below, hc, hid⟩
          obtain ⟨n, hn, hn', hid⟩ := (hbelow c hstep below hc).mp hid
          exact ⟨n, .head hstep hn, hn', hid⟩
        · rintro ⟨n, hn, hn', hid⟩
          rcases shows_iff.mp hn with rfl | ⟨c, hstep, hn⟩
          · exact absurd hn' hends
          · obtain ⟨below, hc⟩ := (exists_ofNode_step.mp ⟨v, hv⟩).2 c hstep
            exact ⟨c, hstep, below, hc, (hbelow c hstep below hc).mpr ⟨n, hn, hn', hid⟩⟩

end StateValue

end Statechart
