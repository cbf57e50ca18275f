/-
Which ids carry a marker.

Each call sets one or two kinds of markers and leaves the other kinds alone
(`carries_run?`).  So of all calls since the graph was put in place only the last one that
sets a kind counts for it, whatever calls of other kinds came in between, and the delta of
a call is the difference between what is marked before and after it.  The markers are kept
in one map that is edited in place.  No id stays in it without markers (`Tight`), which
makes the map a function of what is marked (`eq_of_tight`): a call that changes no mark
changes nothing at all.

A call that looks for what holds some boxes ends only if the ways up from them do.  That
depends on the graph alone and not on what is marked (`isSome_run?_iff`), so a call that has
ended once ends again.
-/
import Mathlib.Data.List.Induction
import Mathlib.Data.Prod.Basic
import Statechart.Proofs.View.Holders

namespace Statechart.View

namespace Markers

variable {m m' : Markers} {marker x : Marker} {id id' : String} {ids : List String}
  {wanted : SortedSet String}

/-- No id is kept without markers. -/
def Tight (m : Markers) : Prop :=
  ∀ id set, m.get? id = some set → ∃ x, x ∈ set

theorem mem_markersAt : x ∈ m.markersAt id ↔ ∃ set, m.get? id = some set ∧ x ∈ set := by
  unfold markersAt
  cases m.get? id with
  | none => simp
  | some set => simp

theorem mem_markersAt_mark :
    x ∈ (mark marker m id').markersAt id ↔ (id = id' ∧ x = marker) ∨ x ∈ m.markersAt id := by
  rw [mark, markersAt, SortedMap.get?_insert]
  by_cases hid : id' = id
  · subst hid
    simp
  · simp [hid, Ne.symm hid, markersAt]

theorem mem_markersAt_unmark :
    x ∈ (unmark marker m id').markersAt id ↔
      x ∈ m.markersAt id ∧ ¬ (id = id' ∧ x = marker) := by
  by_cases hid : id' = id
  · subst hid
    have hrest : x ∈ (m.markersAt id').erase marker ↔ x ∈ m.markersAt id' ∧ x ≠ marker :=
      SortedSet.mem_erase
    simp only [unmark]
    split
    · rename_i hempty
      have hnone : x ∉ (m.markersAt id').erase marker := by
        rw [← SortedSet.mem_toList, List.isEmpty_iff.mp hempty]
        exact List.not_mem_nil
      rw [hrest] at hnone
      rw [markersAt, SortedMap.get?_erase, if_pos rfl]
      simp [hnone]
    · rw [markersAt, SortedMap.get?_insert, if_pos rfl]
      simp
  · have hsame : (unmark marker m id').markersAt id = m.markersAt id := by
      simp only [unmark]
      split <;> simp [markersAt, hid]
    simp [hsame, Ne.symm hid]

theorem mem_markersAt_foldl_mark :
    x ∈ (ids.foldl (mark marker) m).markersAt id ↔
      (id ∈ ids ∧ x = marker) ∨ x ∈ m.markersAt id := by
  induction ids generalizing m with
  | nil => simp
  | cons first rest ih =>
      rw [List.foldl_cons, ih, mem_markersAt_mark, List.mem_cons]
      tauto

theorem mem_markersAt_foldl_unmark :
    x ∈ (ids.foldl (unmark marker) m).markersAt id ↔
      x ∈ m.markersAt id ∧ ¬ (id ∈ ids ∧ x = marker) := by
  induction ids generalizing m with
  | nil => simp
  | cons first rest ih =>
      rw [List.foldl_cons, ih, mem_markersAt_unmark, List.mem_cons]
      tauto

theorem Tight.mark (h : m.Tight) : (mark marker m id').Tight := by
  intro id set hset
  rw [Markers.mark, SortedMap.get?_insert] at hset
  split at hset
  · cases hset
    exact ⟨marker, SortedSet.mem_insert.mpr (Or.inl rfl)⟩
  · exact h id set hset

theorem Tight.unmark (h : m.Tight) : (unmark marker m id').Tight := by
  intro id set hset
  simp only [Markers.unmark] at hset
  split at hset
  · rw [SortedMap.get?_erase] at hset
    split at hset
    · cases hset
    · exact h id set hset
  · rename_i hrest
    rw [SortedMap.get?_insert] at hset
    split at hset
    · cases hset
      exact List.exists_mem_of_ne_nil _ (mt List.isEmpty_iff.mpr hrest)
    · exact h id set hset

theorem Tight.foldl {f : Markers → String → Markers} (hf : ∀ m id, m.Tight → (f m id).Tight)
    (h : m.Tight) : (ids.foldl f m).Tight := by
  induction ids generalizing m with
  | nil => exact h
  | cons first rest ih => exact ih (hf m first h)

/-- Where no id is kept without markers, the map is known from what is marked. -/
theorem eq_of_tight (h : m.Tight) (h' : m'.Tight)
    (hsame : ∀ id x, x ∈ m.markersAt id ↔ x ∈ m'.markersAt id) : m = m' := by
  refine SortedMap.ext fun id => ?_
  have hset : m.markersAt id = m'.markersAt id := SortedSet.ext (hsame id)
  unfold markersAt at hset
  cases hm : m.get? id with
  | none =>
      cases hm' : m'.get? id with
      | none => rfl
      | some set =>
          obtain ⟨x, hx⟩ := h' id set hm'
          rw [hm, hm', Option.getD_none, Option.getD_some] at hset
          exact absurd (hset ▸ hx) SortedSet.not_mem_empty
  | some set =>
      cases hm' : m'.get? id with
      | none =>
          obtain ⟨x, hx⟩ := h id set hm
          rw [hm, hm', Option.getD_none, Option.getD_some] at hset
          exact absurd (hset ▸ hx) SortedSet.not_mem_empty
      | some set' =>
          rw [hm, hm', Option.getD_some, Option.getD_some] at hset
          rw [hset]

/-! ### Setting the ids that carry a marker -/

theorem mem_surplus : id ∈ m.surplus marker wanted ↔ marker ∈ m.markersAt id ∧ id ∉ wanted := by
  rw [surplus, List.mem_map, mem_markersAt]
  constructor
  · rintro ⟨⟨id, set⟩, he, rfl⟩
    obtain ⟨hentry, hkeep⟩ := List.mem_filter.mp he
    obtain ⟨hmarker, hwanted⟩ := Bool.and_eq_true_iff.mp hkeep
    exact ⟨⟨set, SortedMap.get?_eq_some_iff.mpr hentry, of_decide_eq_true hmarker⟩,
      of_decide_eq_true hwanted⟩
  · rintro ⟨⟨set, hset, hmarker⟩, hwanted⟩
    refine ⟨(id, set), List.mem_filter.mpr ⟨SortedMap.get?_eq_some_iff.mp hset, ?_⟩, rfl⟩
    exact Bool.and_eq_true_iff.mpr ⟨decide_eq_true hmarker, decide_eq_true hwanted⟩

theorem mem_missing : id ∈ m.missing marker wanted ↔ id ∈ wanted ∧ marker ∉ m.markersAt id := by
  rw [missing, List.mem_filter, decide_eq_true_iff, SortedSet.mem_toList]

theorem nodup_surplus : (m.surplus marker wanted).Nodup := by
  have hkeys : m.keys.Nodup := by
    refine List.pairwise_map.mpr (m.ascending.imp fun {a b} hlt heq => ?_)
    exact SortedSet.not_lt_self _ (heq ▸ hlt)
  exact hkeys.sublist (List.filter_sublist.map Prod.fst)

theorem nodup_missing : (m.missing marker wanted).Nodup :=
  wanted.nodup_toList.filter _

/-- **A marker stands where it is wanted, and the others where they stood.** -/
theorem mem_markersAt_assign :
    x ∈ (m.assign marker wanted).1.markersAt id ↔
      if x = marker then id ∈ wanted else x ∈ m.markersAt id := by
  rw [assign, mem_markersAt_foldl_mark, mem_markersAt_foldl_unmark, mem_missing, mem_surplus]
  split
  · rename_i hx
    subst hx
    tauto
  · tauto

theorem Tight.assign (h : m.Tight) : (m.assign marker wanted).1.Tight :=
  .foldl (fun _ _ => .mark) (.foldl (fun _ _ => .unmark) h)

end Markers

variable {o : Overlay} {g : Graph} {marker x : Marker} {id : String} {call : Call}

/-- An id carries a marker. -/
def Overlay.Carries (o : Overlay) (marker : Marker) (id : String) : Prop :=
  marker ∈ o.markers.markersAt id

theorem Overlay.eq_of_markers {o' : Overlay} (hgraph : o.graph = o'.graph)
    (hmarkers : o.markers = o'.markers) : o = o' := by
  cases o
  cases o'
  cases hgraph
  cases hmarkers
  rfl

theorem Overlay.has_iff : o.has id marker = true ↔ o.Carries marker id :=
  decide_eq_true_iff

/-- What is marked in one overlay and not in another, and the other way round, each once. -/
structure MarkerDelta.Between (d : MarkerDelta) (before after : Overlay) : Prop where
  added : ∀ id marker,
    (id, marker) ∈ d.added ↔ after.Carries marker id ∧ ¬ before.Carries marker id
  removed : ∀ id marker,
    (id, marker) ∈ d.removed ↔ before.Carries marker id ∧ ¬ after.Carries marker id
  nodup_added : d.added.Nodup
  nodup_removed : d.removed.Nodup

/-! ### Calls -/

/-- A call that sets markers. -/
inductive Call
  | active (leaves : List String)
  | preview (event : String) (leaves : List String)
  | clear
  | enabled (events : List String)

namespace Call

/-- What a call does to an overlay, if it ends. -/
def run? (o : Overlay) : Call → Option (Overlay × MarkerDelta)
  | active leaves => o.syncActive? leaves
  | preview event leaves => o.syncPreview? event leaves
  | clear => some o.clearPreview
  | enabled events => some (o.syncEnabled events)

/-- What a call that is known to end does to an overlay. -/
def run (o : Overlay) (call : Call) : Overlay × MarkerDelta :=
  o.ended (call.run? o)

/-- The calls that end on a graph. -/
def Returns (g : Graph) : Call → Prop
  | active leaves | preview _ leaves => g.EndsFrom leaves
  | clear | enabled _ => True

/-- The kinds of markers that a call sets. -/
def kinds : Call → List Marker
  | active _ => [.active]
  | preview .. | clear => [.preview, .highlight]
  | enabled _ => [.disabled]

/-- The edges of transitions for an event, from what is active into what some ids reach. -/
def Leads (o : Overlay) (event : String) (leaves : List String) (id : String) : Prop :=
  ∃ e ∈ o.graph.edges, e.kind = .transition ∧ e.event = some event ∧
    o.Carries .active e.source ∧ o.graph.Reaches leaves e.target ∧ e.id = id

/-- The edges of transitions with an event that is not among some. -/
def Unanswered (g : Graph) (events : List String) (id : String) : Prop :=
  ∃ e ∈ g.edges, e.kind = .transition ∧
    (∃ event, e.event = some event ∧ event ∉ events) ∧ e.id = id

/-- What a call marks, by the kind of the marker. -/
def Marks (o : Overlay) (marker : Marker) (id : String) : Call → Prop
  | active leaves => marker = .active ∧ o.graph.Reaches leaves id
  | preview event leaves =>
    marker = .preview ∧ o.graph.Reaches leaves id ∨
      marker = .highlight ∧ Leads o event leaves id
  | clear => False
  | enabled events => marker = .disabled ∧ Unanswered o.graph events id

end Call

namespace Overlay

theorem mem_highlighted {event : String} {leaves : List String} {reached : SortedSet String}
    (h : o.expand? leaves = some reached) :
    id ∈ o.highlighted event reached ↔ Call.Leads o event leaves id := by
  rw [highlighted, SortedSet.mem_ofList, List.mem_map]
  unfold Call.Leads Graph.transitionEdges
  simp only [List.mem_filter, Bool.and_eq_true, beq_iff_eq, decide_eq_true_iff, mem_expand? h,
    has_iff, and_assoc]

theorem mem_unanswered {events : List String} :
    id ∈ o.unanswered events ↔ Call.Unanswered o.graph events id := by
  rw [unanswered, SortedSet.mem_ofList, List.mem_map]
  refine exists_congr fun e => ?_
  unfold Graph.transitionEdges
  cases he : e.event with
  | none => simp [he]
  | some event =>
      simp only [List.mem_filter, he, Bool.not_eq_true', List.contains_eq_mem,
        decide_eq_false_iff_not, beq_iff_eq, Option.some.injEq, exists_eq_left', and_assoc]

/-! ### Setting one or two kinds of markers -/

theorem carries_assign {wanted : SortedSet String} :
    (o.assign marker wanted).1.Carries x id ↔
      if x = marker then id ∈ wanted else o.Carries x id :=
  Markers.mem_markersAt_assign

theorem carries_assignBoth {first second : Marker} {wanted wanted' : SortedSet String} :
    (o.assignBoth first wanted second wanted').1.Carries x id ↔
      if x = second then id ∈ wanted' else if x = first then id ∈ wanted else o.Carries x id := by
  rw [← carries_assign, ← carries_assign]
  rfl

theorem between_assign {wanted : SortedSet String} :
    (o.assign marker wanted).2.Between o (o.assign marker wanted).1 where
  added id x := by
    have hadded : (id, x) ∈ (o.assign marker wanted).2.added ↔
        id ∈ o.markers.missing marker wanted ∧ marker = x := by
      simp [assign, Markers.assign]
    rw [hadded, Markers.mem_missing, carries_assign]
    by_cases hx : x = marker
    · subst hx
      simp [Carries]
    · simp [hx, Ne.symm hx]
  removed id x := by
    have hremoved : (id, x) ∈ (o.assign marker wanted).2.removed ↔
        id ∈ o.markers.surplus marker wanted ∧ marker = x := by
      simp [assign, Markers.assign]
    rw [hremoved, Markers.mem_surplus, carries_assign]
    by_cases hx : x = marker
    · subst hx
      simp [Carries]
    · simp [hx, Ne.symm hx]
  nodup_added := Markers.nodup_missing.map (Prod.mk_left_injective marker)
  nodup_removed := Markers.nodup_surplus.map (Prod.mk_left_injective marker)

end Overlay

/-- The changes of two steps that do not change the same kind of marker. -/
theorem MarkerDelta.Between.merge {d d' : MarkerDelta} {o₁ o₂ : Overlay}
    (h : d.Between o o₁) (h' : d'.Between o₁ o₂)
    (hfirst : ∀ id, o₂.Carries marker id ↔ o₁.Carries marker id)
    (hsecond : ∀ x ≠ marker, ∀ id, o₁.Carries x id ↔ o.Carries x id) :
    (d.merge d').Between o o₂ where
  added id x := by
    rw [MarkerDelta.merge, List.mem_append, h.added, h'.added]
    by_cases hx : x = marker
    · subst hx
      have := hfirst id
      tauto
    · have := hsecond x hx id
      tauto
  removed id x := by
    rw [MarkerDelta.merge, List.mem_append, h.removed, h'.removed]
    by_cases hx : x = marker
    · subst hx
      have := hfirst id
      tauto
    · have := hsecond x hx id
      tauto
  nodup_added := h.nodup_added.append h'.nodup_added fun e he he' =>
    ((h'.added e.1 e.2).mp he').2 ((h.added e.1 e.2).mp he).1
  nodup_removed := h.nodup_removed.append h'.nodup_removed fun e he he' =>
    ((h.removed e.1 e.2).mp he).2 ((h'.removed e.1 e.2).mp he').1

theorem Overlay.between_assignBoth {first second : Marker} (hne : first ≠ second)
    {wanted wanted' : SortedSet String} :
    (o.assignBoth first wanted second wanted').2.Between o
      (o.assignBoth first wanted second wanted').1 := by
  have hfirst : ∀ id, (o.assignBoth first wanted second wanted').1.Carries first id ↔
      (o.assign first wanted).1.Carries first id := fun id => by
    rw [carries_assignBoth, if_neg hne, carries_assign]
  have hsecond : ∀ x ≠ first, ∀ id, (o.assign first wanted).1.Carries x id ↔ o.Carries x id :=
    fun x hx id => by rw [carries_assign, if_neg hx]
  exact between_assign.merge between_assign hfirst hsecond

theorem MarkerDelta.Between.same : MarkerDelta.Between ⟨[], []⟩ o o where
  added _ _ := iff_of_false List.not_mem_nil fun h => h.2 h.1
  removed _ _ := iff_of_false List.not_mem_nil fun h => h.2 h.1
  nodup_added := .nil
  nodup_removed := .nil

/-- Between two overlays with the same marks nothing changed. -/
theorem MarkerDelta.Between.eq_nil {d : MarkerDelta} {o' : Overlay} (h : d.Between o o')
    (hsame : ∀ marker id, o'.Carries marker id ↔ o.Carries marker id) : d = ⟨[], []⟩ := by
  obtain ⟨added, removed⟩ := d
  have hadded : added = [] := List.eq_nil_iff_forall_not_mem.mpr fun e he => by
    obtain ⟨hafter, hbefore⟩ := (h.added e.1 e.2).mp he
    exact hbefore ((hsame _ _).mp hafter)
  have hremoved : removed = [] := List.eq_nil_iff_forall_not_mem.mpr fun e he => by
    obtain ⟨hbefore, hafter⟩ := (h.removed e.1 e.2).mp he
    exact hafter ((hsame _ _).mpr hbefore)
  rw [hadded, hremoved]

namespace Call

/-! ### One call -/

variable {r : Overlay × MarkerDelta}

/-- **A call ends exactly if the ways up from the ids that it is given end.** -/
theorem isSome_run?_iff : (call.run? o).isSome ↔ call.Returns o.graph := by
  cases call with
  | active leaves =>
      rw [Returns, ← Overlay.isSome_expand?_iff, run?, Overlay.syncActive?]
      cases o.expand? leaves <;> rfl
  | preview event leaves =>
      rw [Returns, ← Overlay.isSome_expand?_iff, run?, Overlay.syncPreview?]
      cases o.expand? leaves <;> rfl
  | clear => exact iff_of_true rfl trivial
  | enabled events => exact iff_of_true rfl trivial

/-- A call that ends makes one or two sets of ids those that carry a marker. -/
theorem run?_cases (h : call.run? o = some r) :
    (∃ kind wanted, r = o.assign kind wanted ∧ call.kinds = [kind] ∧
      ∀ x id, call.Marks o x id ↔ x = kind ∧ id ∈ wanted) ∨
    ∃ wanted wanted', r = o.assignBoth .preview wanted .highlight wanted' ∧
      call.kinds = [.preview, .highlight] ∧
      ∀ x id, call.Marks o x id ↔ x = .preview ∧ id ∈ wanted ∨ x = .highlight ∧ id ∈ wanted' := by
  cases call with
  | active leaves =>
      obtain ⟨reached, hreached, hr⟩ := Option.bind_eq_some_iff.mp h
      cases hr
      exact Or.inl ⟨.active, reached, rfl, rfl, fun x id => by
        rw [Marks, Overlay.mem_expand? hreached]⟩
  | preview event leaves =>
      obtain ⟨reached, hreached, hr⟩ := Option.bind_eq_some_iff.mp h
      cases hr
      exact Or.inr ⟨reached, _, rfl, rfl, fun x id => by
        rw [Marks, Overlay.mem_expand? hreached, Overlay.mem_highlighted hreached]⟩
  | clear =>
      cases h
      exact Or.inr ⟨_, _, rfl, rfl, by simp [Marks]⟩
  | enabled events =>
      cases h
      exact Or.inl ⟨.disabled, _, rfl, rfl, fun x id => by
        rw [Marks, Overlay.mem_unanswered]⟩

theorem graph_run? (h : call.run? o = some r) : r.1.graph = o.graph := by
  obtain ⟨_, _, rfl, _⟩ | ⟨_, _, rfl, _⟩ := run?_cases h <;> rfl

/-- **A call sets its kinds of markers and leaves the others alone.** -/
theorem carries_run? (h : call.run? o = some r) :
    r.1.Carries marker id ↔
      if marker ∈ call.kinds then call.Marks o marker id else o.Carries marker id := by
  obtain ⟨kind, wanted, rfl, hkinds, hmarks⟩ | ⟨wanted, wanted', rfl, hkinds, hmarks⟩ :=
    run?_cases h
  · rw [Overlay.carries_assign, hkinds, hmarks]
    by_cases hkind : marker = kind <;> simp [hkind]
  · rw [Overlay.carries_assignBoth, hkinds, hmarks]
    cases marker <;> simp

/-- **The delta of a call is the difference that it makes.** -/
theorem between_run? (h : call.run? o = some r) : r.2.Between o r.1 := by
  obtain ⟨_, _, rfl, _⟩ | ⟨_, _, rfl, _⟩ := run?_cases h
  · exact Overlay.between_assign
  · exact Overlay.between_assignBoth (by decide)

theorem tight_run? (h : call.run? o = some r) (htight : o.markers.Tight) :
    r.1.markers.Tight := by
  obtain ⟨_, _, rfl, _⟩ | ⟨_, _, rfl, _⟩ := run?_cases h
  · exact htight.assign
  · exact htight.assign.assign

/-- What a call marks is the same once it has been made: what it reads is not what it sets. -/
theorem marks_run? (h : call.run? o = some r) :
    call.Marks r.1 marker id ↔ call.Marks o marker id := by
  cases call with
  | active leaves => rw [Marks, Marks, graph_run? h]
  | preview event leaves =>
      have hactive : ∀ source, r.1.Carries .active source ↔ o.Carries .active source :=
        fun source => by rw [carries_run? h, if_neg (by simp [kinds])]
      simp only [Marks, Leads, graph_run? h, hactive]
  | clear => rfl
  | enabled events => rw [Marks, Marks, graph_run? h]

/-- **A call that is repeated at once ends again, and changes nothing.** -/
theorem run?_of_run? (h : call.run? o = some r) (htight : o.markers.Tight) :
    call.run? r.1 = some (r.1, ⟨[], []⟩) := by
  have hreturns : (call.run? r.1).isSome := by
    rw [isSome_run?_iff, graph_run? h, ← isSome_run?_iff, h]
    rfl
  obtain ⟨r', hr'⟩ := Option.isSome_iff_exists.mp hreturns
  have hsame : ∀ marker id, r'.1.Carries marker id ↔ r.1.Carries marker id := fun marker id => by
    rw [carries_run? hr', marks_run? h]
    split
    · rename_i hkind
      rw [carries_run? h, if_pos hkind]
    · rfl
  have hdelta : r'.2 = ⟨[], []⟩ := (between_run? hr').eq_nil hsame
  have hmarkers : r'.1.markers = r.1.markers :=
    Markers.eq_of_tight (tight_run? hr' (tight_run? h htight)) (tight_run? h htight)
      fun id x => hsame x id
  have hoverlay : r'.1 = r.1 := Overlay.eq_of_markers (graph_run? hr') hmarkers
  exact hr'.trans (congrArg some (Prod.ext hoverlay hdelta))

/-! ### Calls that are known to end -/

/-- Where a call does not end nothing is said to come of it. -/
theorem run_cases (o : Overlay) (call : Call) :
    call.run? o = some (call.run o) ∨ call.run o = (o, ⟨[], []⟩) := by
  cases h : call.run? o with
  | none => exact Or.inr (by rw [run, h]; rfl)
  | some r => exact Or.inl (by rw [run, h]; rfl)

theorem run?_eq_run (h : call.Returns o.graph) : call.run? o = some (call.run o) := by
  obtain ⟨r, hr⟩ := Option.isSome_iff_exists.mp (isSome_run?_iff.mpr h)
  rw [run, hr]
  rfl

theorem carries_run (h : call.Returns o.graph) :
    (call.run o).1.Carries marker id ↔
      if marker ∈ call.kinds then call.Marks o marker id else o.Carries marker id :=
  carries_run? (run?_eq_run h)

/-- Of some calls this is the last one that sets a kind of marker, after those before it. -/
def LastOf (marker : Marker) (calls before : List Call) (call : Call) : Prop :=
  ∃ rest, calls = before ++ call :: rest ∧ marker ∈ call.kinds ∧ ∀ c ∈ rest, marker ∉ c.kinds

variable {calls before : List Call} {last : Call}

theorem lastOf_nil : ¬ LastOf marker [] before last := by
  rintro ⟨rest, heq, _⟩
  simp at heq

/-- A call that sets the kind is the last one. -/
theorem lastOf_concat (h : marker ∈ call.kinds) :
    LastOf marker (calls ++ [call]) before last ↔ before = calls ∧ last = call := by
  constructor
  · rintro ⟨rest, heq, _, hrest⟩
    rcases List.eq_nil_or_concat rest with rfl | ⟨rest, c, rfl⟩
    · obtain ⟨hcalls, hcall⟩ := List.append_inj' heq rfl
      exact ⟨hcalls.symm, (List.singleton_injective hcall).symm⟩
    · have hsplit : calls ++ [call] = (before ++ last :: rest) ++ [c] := by simpa using heq
      obtain ⟨_, hcall⟩ := List.append_inj' hsplit rfl
      cases hcall
      exact absurd h (hrest call (by simp))
  · rintro ⟨rfl, rfl⟩
    exact ⟨[], rfl, h, fun _ hc => absurd hc List.not_mem_nil⟩

/-- A call that does not set the kind leaves the last one as it is. -/
theorem lastOf_concat_of_notMem (h : marker ∉ call.kinds) :
    LastOf marker (calls ++ [call]) before last ↔ LastOf marker calls before last := by
  constructor
  · rintro ⟨rest, heq, hlast, hrest⟩
    rcases List.eq_nil_or_concat rest with rfl | ⟨rest, c, rfl⟩
    · obtain ⟨_, hcall⟩ := List.append_inj' heq rfl
      cases hcall
      exact absurd hlast h
    · have hsplit : calls ++ [call] = (before ++ last :: rest) ++ [c] := by simpa using heq
      obtain ⟨hcalls, _⟩ := List.append_inj' hsplit rfl
      exact ⟨rest, hcalls, hlast, fun d hd => hrest d (by simp [hd])⟩
  · rintro ⟨rest, rfl, hlast, hrest⟩
    refine ⟨rest ++ [call], by simp, hlast, fun c hc => ?_⟩
    rcases List.mem_append.mp hc with hc | hc
    · exact hrest c hc
    · cases List.mem_singleton.mp hc
      exact h

end Call

/-! ### A sequence of calls -/

namespace Overlay

/-- An overlay after some calls, if they end. -/
def after? (o : Overlay) (calls : List Call) : Option Overlay :=
  calls.foldlM (fun o call => (call.run? o).map Prod.fst) o

variable {calls : List Call} {o' : Overlay}

theorem after?_concat :
    o.after? (calls ++ [call]) = (o.after? calls).bind fun o' => (call.run? o').map Prod.fst := by
  simp [after?, List.foldlM_append]

/-- The last of some calls that end is made where those before it led to. -/
theorem exists_of_after?_concat (h : o.after? (calls ++ [call]) = some o') :
    ∃ o₁ r, o.after? calls = some o₁ ∧ call.run? o₁ = some r ∧ r.1 = o' := by
  rw [after?_concat] at h
  obtain ⟨o₁, ho₁, h⟩ := Option.bind_eq_some_iff.mp h
  obtain ⟨r, hr, hfst⟩ := Option.map_eq_some_iff.mp h
  exact ⟨o₁, r, ho₁, hr, hfst⟩

theorem graph_after? (h : o.after? calls = some o') : o'.graph = o.graph := by
  induction calls using List.reverseRecOn generalizing o' with
  | nil =>
      cases h
      rfl
  | append_singleton calls call ih =>
      obtain ⟨_, _, ho₁, hr, rfl⟩ := exists_of_after?_concat h
      rw [Call.graph_run? hr, ih ho₁]

theorem tight_after? (htight : o.markers.Tight) (h : o.after? calls = some o') :
    o'.markers.Tight := by
  induction calls using List.reverseRecOn generalizing o' with
  | nil =>
      cases h
      exact htight
  | append_singleton calls call ih =>
      obtain ⟨_, _, ho₁, hr, rfl⟩ := exists_of_after?_concat h
      exact Call.tight_run? hr (ih ho₁)

/-- **Some calls end exactly if each of them does.** -/
theorem isSome_after?_iff :
    (o.after? calls).isSome ↔ ∀ call ∈ calls, call.Returns o.graph := by
  induction calls using List.reverseRecOn with
  | nil => simp [after?]
  | append_singleton calls call ih =>
      rw [after?_concat, List.forall_mem_append, List.forall_mem_singleton, ← ih]
      cases h : o.after? calls with
      | none => simp
      | some o₁ => simp [Call.isSome_run?_iff, graph_after? h]

/-- **The last call that sets a kind of marker decides about it.** -/
theorem carries_after? (hnone : ∀ id, ¬ o.Carries marker id) (h : o.after? calls = some o') :
    o'.Carries marker id ↔
      ∃ before call o₁, Call.LastOf marker calls before call ∧
        o.after? before = some o₁ ∧ call.Marks o₁ marker id := by
  induction calls using List.reverseRecOn generalizing o' with
  | nil =>
      cases h
      simp [hnone, Call.lastOf_nil]
  | append_singleton calls call ih =>
      obtain ⟨o₁, _, ho₁, hr, rfl⟩ := exists_of_after?_concat h
      rw [Call.carries_run? hr]
      split
      · rename_i hkind
        simp [Call.lastOf_concat hkind, ho₁]
      · rename_i hkind
        simp [Call.lastOf_concat_of_notMem hkind, ih ho₁]

/-- **Of the calls since a graph was put in place the last one of a kind decides what carries
its markers, no id is kept without markers, and the delta of every further call is the
difference that it makes, which is none when it is repeated.**  This is so wherever the calls
have ended, and they end exactly if the ways up from the ids that they are given do. -/
theorem markers_setGraph_after (o : Overlay) (g : Graph) (calls : List Call) :
    (((o.setGraph g).after? calls).isSome ↔ ∀ call ∈ calls, call.Returns g) ∧
    ∀ o', (o.setGraph g).after? calls = some o' →
      (∀ marker id, o'.has id marker = true ↔
        ∃ before call o₁, Call.LastOf marker calls before call ∧
          (o.setGraph g).after? before = some o₁ ∧ call.Marks o₁ marker id) ∧
      o'.markers.Tight ∧
      ∀ call : Call, ((call.run? o').isSome ↔ call.Returns g) ∧
        ∀ r, call.run? o' = some r →
          r.2.Between o' r.1 ∧ call.run? r.1 = some (r.1, ⟨[], []⟩) := by
  have hnone : ∀ marker id, ¬ (o.setGraph g).Carries marker id := fun marker id =>
    SortedSet.not_mem_empty
  have htight : (o.setGraph g).markers.Tight := fun id set hset => by cases hset
  refine ⟨isSome_after?_iff, fun o' ho' => ⟨fun marker id => ?_, tight_after? htight ho', ?_⟩⟩
  · rw [has_iff, carries_after? (hnone marker) ho']
  · have hgraph : o'.graph = g := graph_after? ho'
    refine fun call => ⟨hgraph ▸ Call.isSome_run?_iff, fun r hr => ?_⟩
    exact ⟨Call.between_run? hr, Call.run?_of_run? hr (tight_after? htight ho')⟩

/-- Two boxes in a third, and an edge from the one to the other. -/
def pairGraph : Graph where
  boxes := [⟨"m", "m", none, .state .compound, 0, [], []⟩,
    ⟨"m.a", "a", some "m", .state .atomic, 1, [], []⟩,
    ⟨"m.b", "b", some "m", .state .atomic, 1, [], []⟩]
  edges := [⟨"m.a:m.b::GO", "m.a", "m.b", .transition, some "GO", none, [], 0, "GO"⟩]

/-- Two boxes that hold each other. -/
def circleGraph : Graph where
  boxes := [⟨"a", "a", some "b", .state .compound, 0, [], []⟩,
    ⟨"b", "b", some "a", .state .compound, 0, [], []⟩]
  edges := []

/-- An edge that was highlighted from a box that was active then keeps the marker.  Where two
boxes hold each other, marking one of them as active never ends. -/
theorem markers_setGraph_after_pairGraph :
    (∃ before call o₁, Call.LastOf .highlight
        [.active ["m.a"], .preview "GO" ["m.b"], .active ["m.b"], .enabled ["GO"]] before call ∧
      ((ofGraph .empty).setGraph pairGraph).after? before = some o₁ ∧
      call.Marks o₁ .highlight "m.a:m.b::GO") ∧
    (¬ ∃ before call o₁, Call.LastOf .active
        [.active ["m.a"], .preview "GO" ["m.b"], .active ["m.b"], .enabled ["GO"]] before call ∧
      ((ofGraph .empty).setGraph pairGraph).after? before = some o₁ ∧
      call.Marks o₁ .active "m.a") ∧
    ¬ (Call.active ["a"]).Returns circleGraph := by
  obtain ⟨-, hends⟩ := markers_setGraph_after (ofGraph .empty) pairGraph
    [.active ["m.a"], .preview "GO" ["m.b"], .active ["m.b"], .enabled ["GO"]]
  obtain ⟨o', ho', hcheck⟩ : ∃ o', ((ofGraph .empty).setGraph pairGraph).after?
      [.active ["m.a"], .preview "GO" ["m.b"], .active ["m.b"], .enabled ["GO"]] = some o' ∧
      (o'.has "m.a:m.b::GO" .highlight && !o'.has "m.a" .active) = true :=
    (Option.any_eq_true _ _).mp (by decide +kernel)
  obtain ⟨hlit, hleft⟩ := Bool.and_eq_true_iff.mp hcheck
  obtain ⟨hmarks, -, -⟩ := hends o' ho'
  refine ⟨(hmarks .highlight "m.a:m.b::GO").mp hlit, fun h => ?_, fun hreturns => ?_⟩
  · rw [(hmarks .active "m.a").mpr h] at hleft
    cases hleft
  · obtain ⟨hiff, -⟩ := markers_setGraph_after (ofGraph .empty) circleGraph [.active ["a"]]
    exact absurd (hiff.mpr (by simpa using hreturns)) (by decide +kernel)

end Overlay

end Statechart.View
