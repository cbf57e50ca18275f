/-
A definition that is loaded from its own value.

A definition keeps the value of the text that it was loaded from.  Loading from that value is
another way through the readers, which see every state, event and delay once that the text
may write twice.  `Distinct` is what makes up for it: in a definition that passes the checks
no state has two states below with one key, and no event and no delay is written twice, so
that nothing was lost.

The induction is on the text.  A state is read part by part, and what is known of the parts is
known of the whole state, at the end; `distinctAt_readPart` carries it back to where the part
was read, since no part is read twice.
-/
import Statechart.Definition.Basic
import Statechart.Proofs.Definition.Parts
import Statechart.Proofs.Tree.Drawn
import Statechart.Proofs.Tree.Loaded

namespace Statechart

open Outcome
open Json (Raw Origin Fault Heeds Fresh Agree toRawMembers toRawItems mergeMembers)

namespace StateConfig

/-- A state in which nothing that has a key is written twice, nor in those below. -/
inductive Distinct : StateConfig → Prop
  | mk {c : StateConfig} (states : (c.states.map Prod.fst).Nodup)
      (on : (c.on.map Prod.fst).Nodup) (after : (c.after.map Prod.fst).Nodup)
      (rest : ∀ m ∈ c.states, Distinct m.2) : Distinct c

/-- The same of one part of a state. -/
def DistinctAt (c : StateConfig) : StateField → Prop
  | .states => (c.states.map Prod.fst).Nodup ∧ ∀ m ∈ c.states, m.2.Distinct
  | .on => (c.on.map Prod.fst).Nodup
  | .after => (c.after.map Prod.fst).Nodup
  | _ => True

theorem Distinct.distinctAt {c : StateConfig} (h : c.Distinct) (part : StateField) :
    c.DistinctAt part := by
  cases h with
  | mk states on after rest =>
      cases part with
      | states => exact ⟨states, rest⟩
      | on => exact on
      | after => exact after
      | _ => trivial

/-- **In a state that passes the checks nothing is written twice.** -/
theorem distinct_of_drawn {isRoot : Bool} {c : StateConfig} {d : Draft}
    (h : Draft.Drawn isRoot c d) (hsound : d.Sound) : c.Distinct := by
  induction h with
  | @mk isRoot c d head rest ih =>
      have hdrawn : Draft.Drawn isRoot c d := .mk head rest
      refine .mk (head.keys ▸ hsound.head.keys) head.on head.after fun m hm => ?_
      obtain ⟨k, hk⟩ := List.mem_iff_getElem?.mp hm
      obtain ⟨b, hb, -, -⟩ := hdrawn.exists_draft hk
      exact ih k m b hk hb (hsound.child b (List.mem_of_getElem? hb))

/-! ### One part after the other -/

section Parts

variable {o : Origin} {c c' : StateConfig} {part other : StateField}

/-- Reading one part leaves the others alone. -/
theorem readPart_keeps {raw : Raw} (h : readPart o c part raw = .ok c') :
    (part ≠ .states → c'.states = c.states) ∧ (part ≠ .on → c'.on = c.on) ∧
      (part ≠ .after → c'.after = c.after) := by
  cases part with
  | states =>
      cases raw with
      | object members =>
          rw [readPart] at h
          obtain ⟨o', -, h⟩ := bind_eq_ok.mp h
          obtain ⟨states, -, h⟩ := bind_eq_ok.mp h
          cases h
          exact ⟨fun hne => absurd rfl hne, fun _ => rfl, fun _ => rfl⟩
      | _ => cases h
  | on =>
      rw [readPart] at h
      obtain ⟨on, -, h⟩ := bind_eq_ok.mp h
      cases h
      exact ⟨fun _ => rfl, fun hne => absurd rfl hne, fun _ => rfl⟩
  | after =>
      rw [readPart] at h
      obtain ⟨after, -, h⟩ := bind_eq_ok.mp h
      cases h
      exact ⟨fun _ => rfl, fun _ => rfl, fun hne => absurd rfl hne⟩
  | _ =>
      rw [readPart] at h
      obtain ⟨a, -, h⟩ := bind_eq_ok.mp h
      cases h
      exact ⟨fun _ => rfl, fun _ => rfl, fun _ => rfl⟩

theorem distinctAt_readPart {raw : Raw} (h : readPart o c part raw = .ok c')
    (hother : other ≠ part) : c'.DistinctAt other ↔ c.DistinctAt other := by
  obtain ⟨hstates, hon, hafter⟩ := readPart_keeps h
  unfold DistinctAt
  cases other with
  | states => rw [hstates hother.symm]
  | on => rw [hon hother.symm]
  | after => rw [hafter hother.symm]
  | _ => exact Iff.rfl

theorem ofMembers_member {key : Raw.Key} {value : Raw} {rest : Raw.Members}
    {seen : List StateField} :
    ofMembers o c seen (.member key value rest) = .ok c' ↔ ∃ k, key = .text k ∧
      ((StateField.ofKey? k = none ∧ value.ignore o = .ok () ∧
          ofMembers o c seen rest = .ok c') ∨
        ∃ part c₁, StateField.ofKey? k = some part ∧ part ∉ seen ∧
          readPart o c part value = .ok c₁ ∧ ofMembers o c₁ (part :: seen) rest = .ok c') := by
  rw [ofMembers, bind_eq_ok]
  refine exists_congr fun k => and_congr Raw.Key.read_eq_ok ?_
  cases StateField.ofKey? k with
  | none => simp [bind_eq_ok, Unique.exists_iff]
  | some part =>
      by_cases hseen : part ∈ seen
      · simp [hseen, throw, throwThe, MonadExceptOf.throw]
      · simp [hseen, bind_eq_ok]

theorem distinctAt_ofMembers : ∀ {members : Raw.Members} {c : StateConfig}
    {seen : List StateField}, ofMembers o c seen members = .ok c' → ∀ part ∈ seen,
      (c'.DistinctAt part ↔ c.DistinctAt part)
  | .close, _, _, h, _, _ => by cases h; exact Iff.rfl
  | .broken _ _, _, _, h, _, _ => by cases h
  | .member key value rest, c, seen, h, other, hother => by
      obtain ⟨k, rfl, ⟨-, -, h⟩ | ⟨part, c₁, -, hfresh, hread, h⟩⟩ := ofMembers_member.mp h
      · exact distinctAt_ofMembers h other hother
      · have hne : other ≠ part := fun heq => hfresh (heq ▸ hother)
        exact (distinctAt_ofMembers h other (List.mem_cons_of_mem _ hother)).trans
          (distinctAt_readPart hread hne)

theorem ofItems_item {head : Raw} {rest : Raw.Items} {parts : List StateField} :
    ofItems o c parts (.item head rest) = .ok c' ↔ ∃ part parts' c₁, parts = part :: parts' ∧
      readPart o c part head = .ok c₁ ∧ ofItems o c₁ parts' rest = .ok c' := by
  cases parts with
  | nil =>
      rw [ofItems]
      constructor
      · intro h; cases h
      · rintro ⟨_, _, _, h, _⟩; cases h
  | cons part parts =>
      rw [ofItems, bind_eq_ok]
      constructor
      · rintro ⟨c₁, hread, h⟩
        exact ⟨part, parts, c₁, rfl, hread, h⟩
      · rintro ⟨_, _, c₁, heq, hread, h⟩
        cases heq
        exact ⟨c₁, hread, h⟩

theorem distinctAt_ofItems : ∀ {items : Raw.Items} {c : StateConfig} {parts : List StateField},
    ofItems o c parts items = .ok c' → ∀ part ∉ parts,
      (c'.DistinctAt part ↔ c.DistinctAt part)
  | .close, _, _, h, _, _ => by
      rw [ofItems] at h
      cases h
      exact Iff.rfl
  | .broken _, _, _, h, _, _ => by
      rw [ofItems] at h
      cases h
  | .item head rest, c, parts, h, other, hother => by
      obtain ⟨part, parts', c₁, rfl, hread, h⟩ := ofItems_item.mp h
      obtain ⟨hne, hrest⟩ := not_or.mp (fun hor => hother (List.mem_cons.mpr hor))
      exact (distinctAt_ofItems h other hrest).trans (distinctAt_readPart hread hne)

/-- A part that holds no states is found again. -/
theorem readPart_flat {raw : Raw} {j : Json} (hpart : part ≠ .states) (hj : raw.Means j)
    (h : readPart o c part raw = .ok c') (hdistinct : c'.DistinctAt part) :
    readPart .value c part j.toRaw = .ok c' := by
  cases part with
  | states => exact absurd rfl hpart
  | id | key | initial =>
      rw [readPart] at h ⊢
      exact (agree_asString.optional.bind _) raw j c' hj h
  | type =>
      rw [readPart] at h ⊢
      exact ((agree_type o).optional.bind _) raw j c' hj h
  | parallel =>
      rw [readPart] at h ⊢
      exact (agree_asBool.bind _) raw j c' hj h
  | history =>
      rw [readPart] at h ⊢
      exact ((stable_history.agree o).optional.bind _) raw j c' hj h
  | onDone =>
      rw [readPart] at h ⊢
      exact ((TransitionConfig.agree_ofRaw o).optional.bind _) raw j c' hj h
  | entry | exit =>
      rw [readPart] at h ⊢
      exact ((stable_actions.agree o).bind _) raw j c' hj h
  | context =>
      rw [readPart] at h ⊢
      exact ((agree_value o).optional.bind _) raw j c' hj h
  | on | after =>
      rw [readPart] at h ⊢
      obtain ⟨entries, hentries, h⟩ := bind_eq_ok.mp h
      cases h
      exact bind_eq_ok.mpr ⟨entries, TransitionConfig.mapOfRaw_again hj hentries hdistinct, rfl⟩

end Parts

/-! ### What the value of a text has lost -/

theorem heeds_ofMembers (c : StateConfig) (seen : List StateField) :
    Heeds (fun key => (StateField.ofKey? key).isSome) (ofMembers .value c seen) := by
  intro pairs
  induction pairs generalizing c seen with
  | nil => rfl
  | cons m rest ih =>
      obtain ⟨k, j⟩ := m
      cases hk : StateField.ofKey? k with
      | none =>
          rw [List.filter_cons_of_neg (by simp [hk]), ← ih, toRawMembers, ofMembers]
          simp [Raw.Key.read, hk, Raw.ignore, bind, Except.bind]
      | some part =>
          rw [List.filter_cons_of_pos (by simp [hk]), toRawMembers, toRawMembers, ofMembers,
            ofMembers]
          simp only [Raw.Key.read, ih]

theorem fresh_of_ofMembers {pairs : List (String × Json)} : ∀ {c c' : StateConfig}
    {seen : List StateField}, ofMembers .value c seen (toRawMembers pairs) = .ok c' →
      Fresh StateField.ofKey? seen pairs := by
  induction pairs with
  | nil => exact fun _ => .nil
  | cons m rest ih =>
      intro c c' seen h
      obtain ⟨k, hk, h⟩ := ofMembers_member.mp h
      cases hk
      rcases h with ⟨hnone, -, h⟩ | ⟨part, c₁, hsome, hunseen, -, h⟩
      · exact .other hnone (ih h)
      · exact .part hsome hunseen (ih h)

mutual

/-- **A state is found again in the value of its text**, if nothing in it is written twice. -/
theorem ofRaw_again {o : Origin} : ∀ {raw : Raw} {j : Json} {c : StateConfig},
    raw.Means j → ofRaw o raw = .ok c → c.Distinct → ofRaw .value j.toRaw = .ok c
  | .object members, _, c, hj, h, hdistinct => by
      obtain ⟨pairs, hpairs, rfl⟩ := Raw.means_object.mp hj
      rw [ofRaw] at h
      obtain ⟨o', -, h⟩ := bind_eq_ok.mp h
      have hwritten := ofMembers_written hpairs h hdistinct
      have hfresh := fresh_of_ofMembers hwritten
      rw [Json.toRaw, ofRaw]
      refine bind_eq_ok.mpr ⟨.value, rfl, ?_⟩
      rw [(heeds_ofMembers blank []).collapse hfresh.nodup_keys, hwritten]
  | .array items, _, c, hj, h, hdistinct => by
      obtain ⟨js, hjs, rfl⟩ := Raw.means_array.mp hj
      rw [ofRaw] at h
      obtain ⟨o', -, h⟩ := bind_eq_ok.mp h
      rw [Json.toRaw, ofRaw]
      have hinOrder : StateField.inOrder.Nodup := by decide
      exact bind_eq_ok.mpr ⟨.value, rfl, ofItems_toRawItems hjs h hinOrder hdistinct⟩
  | .null, _, _, _, h, _ => by cases h
  | .bool _, _, _, _, h, _ => by cases h
  | .number _, _, _, _, h, _ => by cases h
  | .string _, _, _, _, h, _ => by cases h
  | .broken _ _ _, _, _, _, h, _ => by cases h

theorem ofMembers_written {o : Origin} : ∀ {members : Raw.Members}
    {pairs : List (String × Json)} {c c' : StateConfig} {seen : List StateField},
      members.Write pairs → ofMembers o c seen members = .ok c' → c'.Distinct →
        ofMembers .value c seen (toRawMembers pairs) = .ok c'
  | .close, _, _, _, _, hwrite, h, _ => by
      cases hwrite
      cases h
      rfl
  | .broken _ _, _, _, _, _, hwrite, _, _ => by cases hwrite
  | .member key value rest, _, c, c', seen, hwrite, h, hdistinct => by
      obtain ⟨k, j, pairs, rfl, hj, hpairs, rfl⟩ := Raw.Members.write_member.mp hwrite
      obtain ⟨_, hk, h⟩ := ofMembers_member.mp h
      cases hk
      refine ofMembers_member.mpr ⟨k, rfl, ?_⟩
      rcases h with ⟨hnone, -, h⟩ | ⟨part, c₁, hsome, hunseen, hread, h⟩
      · exact Or.inl ⟨hnone, rfl, ofMembers_written hpairs h hdistinct⟩
      · -- later members leave the part as it was read here
        have hpart : c₁.DistinctAt part :=
          (distinctAt_ofMembers h part (List.mem_cons_self ..)).mp (hdistinct.distinctAt part)
        exact Or.inr ⟨part, c₁, hsome, hunseen, readPart_again hj hread hpart,
          ofMembers_written hpairs h hdistinct⟩

theorem ofItems_toRawItems {o : Origin} : ∀ {items : Raw.Items} {js : List Json}
    {c c' : StateConfig} {parts : List StateField}, items.Mean js →
      ofItems o c parts items = .ok c' → parts.Nodup → c'.Distinct →
        ofItems .value c parts (toRawItems js) = .ok c'
  | .close, _, _, _, _, hmean, h, _, _ => by
      cases hmean
      rw [ofItems] at h
      cases h
      rw [toRawItems, ofItems]
  | .broken _, _, _, _, _, hmean, _, _, _ => by cases hmean
  | .item head rest, _, c, c', parts, hmean, h, hparts, hdistinct => by
      obtain ⟨j, js, hj, hjs, rfl⟩ := Raw.Items.mean_item.mp hmean
      obtain ⟨part, parts', c₁, rfl, hread, h⟩ := ofItems_item.mp h
      obtain ⟨hunseen, hparts⟩ := List.nodup_cons.mp hparts
      have hpart : c₁.DistinctAt part :=
        (distinctAt_ofItems h part hunseen).mp (hdistinct.distinctAt part)
      exact ofItems_item.mpr ⟨part, parts', c₁, rfl, readPart_again hj hread hpart,
        ofItems_toRawItems hjs h hparts hdistinct⟩

theorem readPart_again {o : Origin} : ∀ {raw : Raw} {j : Json} {c c' : StateConfig}
    {part : StateField}, raw.Means j → readPart o c part raw = .ok c' → c'.DistinctAt part →
      readPart .value c part j.toRaw = .ok c' := by
  intro raw j c c' part hj h hdistinct
  by_cases hpart : part = .states
  · subst hpart
    cases raw with
    | object members =>
        obtain ⟨pairs, hpairs, rfl⟩ := Raw.means_object.mp hj
        rw [readPart] at h
        obtain ⟨o', -, h⟩ := bind_eq_ok.mp h
        obtain ⟨states, hstates, h⟩ := bind_eq_ok.mp h
        cases h
        obtain ⟨hkeys, hrest⟩ := hdistinct
        obtain ⟨hagain, heq⟩ := statesOfMembers_written hpairs hstates hrest
        rw [heq] at hkeys
        rw [Json.toRaw, readPart, Json.mergeMembers_nil_of_nodup hkeys]
        exact bind_eq_ok.mpr ⟨.value, rfl, bind_eq_ok.mpr ⟨states, hagain, rfl⟩⟩
    | _ => cases h
  · exact readPart_flat hpart hj h hdistinct

theorem statesOfMembers_written {o : Origin} : ∀ {members : Raw.Members}
    {pairs : List (String × Json)} {states : List (String × StateConfig)},
      members.Write pairs → statesOfMembers o members = .ok states →
        (∀ m ∈ states, m.2.Distinct) →
          statesOfMembers .value (toRawMembers pairs) = .ok states ∧
            states.map Prod.fst = pairs.map Prod.fst
  | .close, _, _, hwrite, h, _ => by
      cases hwrite
      cases h
      exact ⟨rfl, rfl⟩
  | .broken _ _, _, _, hwrite, _, _ => by cases hwrite
  | .member key value rest, _, _, hwrite, h, hdistinct => by
      obtain ⟨k, j, pairs, rfl, hj, hpairs, rfl⟩ := Raw.Members.write_member.mp hwrite
      rw [statesOfMembers] at h
      obtain ⟨_, hk, h⟩ := bind_eq_ok.mp h
      obtain ⟨c, hc, h⟩ := bind_eq_ok.mp h
      obtain ⟨states, hstates, h⟩ := bind_eq_ok.mp h
      cases hk
      cases h
      have hhead := ofRaw_again hj hc (hdistinct _ (List.mem_cons_self ..))
      obtain ⟨hrest, hkeys⟩ := statesOfMembers_written hpairs hstates fun m hm =>
        hdistinct m (List.mem_cons_of_mem _ hm)
      refine ⟨?_, by rw [List.map_cons, List.map_cons, hkeys]⟩
      rw [toRawMembers, statesOfMembers]
      exact bind_eq_ok.mpr ⟨k, rfl, bind_eq_ok.mpr ⟨c, hhead, bind_eq_ok.mpr ⟨states, hrest, rfl⟩⟩⟩

end

end StateConfig

namespace Definition

theorem distinct_of_ofConfig {c : StateConfig} {source : Json} {d : Definition}
    (h : ofConfig c source = .ok d) : c.Distinct := by
  obtain ⟨context, -, h⟩ := bind_eq_ok.mp h
  obtain ⟨tree, htree, -⟩ := bind_eq_ok.mp h
  obtain ⟨-, draft, seen, hcheck, -, -⟩ := Tree.exists_draft_of_build htree
  exact StateConfig.distinct_of_drawn (Draft.drawn_of_check _ _ _ _ _ _ _ hcheck)
    (Draft.sound_of_check hcheck).1

theorem source_of_ofConfig {c : StateConfig} {source : Json} {d : Definition}
    (h : ofConfig c source = .ok d) : d.source = source := by
  obtain ⟨context, -, h⟩ := bind_eq_ok.mp h
  obtain ⟨tree, -, h⟩ := bind_eq_ok.mp h
  cases h
  rfl

theorem readable_eq_ok {α : Type} {x : Except Fault α} {a : α} :
    readable x = .ok a ↔ x = .ok a := by
  cases x with
  | error fault => constructor <;> intro h <;> cases h
  | ok b => exact ⟨fun h => by cases h; rfl, fun h => by cases h; rfl⟩

/-- A text that is a definition is read twice, as it stands and for its value. -/
theorem ofText_eq_ok {text : String} {d : Definition} (h : ofText text = .ok d) :
    ∃ (raw : Raw) (c : StateConfig), raw.Means d.source ∧
      StateConfig.ofRaw Json.wholeText raw = .ok c ∧ ofConfig c d.source = .ok d := by
  obtain ⟨c, hc, h⟩ := bind_eq_ok.mp h
  obtain ⟨source, hsource, h⟩ := bind_eq_ok.mp h
  obtain ⟨c', hc', hdone⟩ := bind_eq_ok.mp (readable_eq_ok.mp hc)
  obtain ⟨source', hsource', hdone'⟩ := bind_eq_ok.mp (readable_eq_ok.mp hsource)
  obtain ⟨_, -, hdone⟩ := bind_eq_ok.mp hdone
  obtain ⟨_, -, hdone'⟩ := bind_eq_ok.mp hdone'
  cases hdone
  cases hdone'
  rw [source_of_ofConfig h]
  exact ⟨_, c, Raw.means_of_value hsource', hc', h⟩

/-- **Loading a definition from its own value gives the definition again**: the same name,
context, checksum and tree. -/
theorem ofJson_toJson {text : String} {d : Definition} (h : ofText text = .ok d) :
    ofJson d.toJson = .ok d := by
  obtain ⟨raw, c, hmeans, hc, hd⟩ := ofText_eq_ok h
  have hagain : StateConfig.ofJson d.toJson = .ok c :=
    StateConfig.ofRaw_again hmeans hc (distinct_of_ofConfig hd)
  exact bind_eq_ok.mpr ⟨c, readable_eq_ok.mpr hagain, hd⟩

/-- A text that writes twice what may be: a member that no reader knows, one of the context,
a target, and a member of a candidate. -/
def echoText : String :=
  "\x7b\"id\":\"m\",\"initial\":\"lit\",\"note\":1,\"note\":[2]," ++
  "\"context\":\x7b\"n\":1,\"k\":null,\"n\":2\x7d," ++
  "\"states\":\x7b\"lit\":\x7b\"on\":\x7b\"GO\":\x7b\"dark\":null,\"lit\":\x7b\x7d," ++
  "\"dark\":\x7b\"cond\":\"ready\",\"why\":1,\"why\":2\x7d\x7d\x7d\x7d," ++
  "\"dark\":\x7b\x7d\x7d\x7d"

theorem ofJson_toJson_echoText : ∃ d, ofText echoText = .ok d ∧ ofJson d.toJson = .ok d ∧
    d.name = "m" ∧ d.tree.nodes.toList.map Node.id = ["m", "m.lit", "m.dark"] := by
  obtain ⟨d, hd, h⟩ := exists_of_run (x := ofText echoText)
    (p := fun d => d.name == "m" && d.tree.nodes.toList.map Node.id == ["m", "m.lit", "m.dark"])
    (by decide +kernel)
  obtain ⟨hname, hids⟩ := Bool.and_eq_true_iff.mp h
  exact ⟨d, hd, ofJson_toJson hd, beq_iff_eq.mp hname, beq_iff_eq.mp hids⟩

end Definition

end Statechart
