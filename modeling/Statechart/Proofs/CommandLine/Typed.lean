/-
Which event a typed line names.

A line that is typed gives the name of an event and perhaps a payload, with white space
between them.  It is read as an argument of the command line, where an equals sign stands
between the two (`ofTyped_spaced`), and an argument ends its name at the first equals sign
(`ofArgument_marked`).  A name that holds an equals sign itself is therefore cut there, and
what is left of it goes into the payload; every other name is read as it is typed, with the
value that its payload stands for (`ofTyped_spaced_eq_iff`).
-/
import Statechart.CommandLine.EventText
import Statechart.Proofs.Json.Extent

namespace Statechart

/-! ### Where a text is cut -/

namespace Text

variable {p : Char → Bool} {front rest : List Char} {c : Char}

/-- A text is cut at the first character that matches. -/
theorem cut?_append (hfront : ∀ d ∈ front, p d = false) (hc : p c = true) :
    cut? p (front ++ c :: rest) = some (front, rest) := by
  induction front with
  | nil => rw [List.nil_append, cut?, if_pos hc]
  | cons d front ih =>
      rw [List.forall_mem_cons] at hfront
      rw [List.cons_append, cut?, if_neg (by simp [hfront.1]), ih hfront.2, Option.map_some]

theorem cut?_eq_none (hfront : ∀ d ∈ front, p d = false) : cut? p front = none := by
  induction front with
  | nil => rfl
  | cons d front ih =>
      rw [List.forall_mem_cons] at hfront
      rw [cut?, if_neg (by simp [hfront.1]), ih hfront.2, Option.map_none]

end Text

/-! ### Events -/

namespace Event

open Outcome

variable {name front back text : String} {j : Json} {e : Event}

/-- A name that is typed without white space. -/
def Solid (name : String) : Prop :=
  ∀ c ∈ name.toList, Text.isBlank c = false

theorem solid_of_all (h : (name.toList.all fun c => !Text.isBlank c) = true) : Solid name :=
  fun c hc => by simpa using List.all_eq_true.mp h c hc

/-- No character before the first equals sign is one. -/
theorem forall_ne_of_not_mem (h : '=' ∉ front.toList) :
    ∀ c ∈ front.toList, (c == '=') = false := fun _ hc =>
  beq_eq_false_iff_ne.mpr fun heq => h (heq ▸ hc)

/-- An argument gives the name before its first equals sign and the payload behind it. -/
theorem ofArgument_marked (h : '=' ∉ front.toList) :
    ofArgument (front ++ "=" ++ text) = (Json.valueOf text).map fun j => ⟨front, j⟩ := by
  have hcut : Text.cut? (· == '=') (front ++ "=" ++ text).toList
      = some (front.toList, text.toList) := by
    rw [String.toList_append, String.toList_append, List.append_assoc]
    exact Text.cut?_append (forall_ne_of_not_mem h) rfl
  rw [ofArgument, hcut]
  simp only [String.ofList_toList]
  cases Json.valueOf text <;> rfl

/-- An argument without an equals sign is a name. -/
theorem ofArgument_plain (h : '=' ∉ name.toList) : ofArgument name = .ok (.named name) := by
  rw [ofArgument, Text.cut?_eq_none (forall_ne_of_not_mem h)]

/-- What is typed in two parts is read as an argument. -/
theorem ofTyped_spaced (hname : Solid name) :
    ofTyped (name ++ " " ++ text) = ofArgument (name ++ "=" ++ Text.trim text) := by
  have hcut : Text.cut? Text.isBlank (name ++ " " ++ text).toList
      = some (name.toList, text.toList) := by
    rw [String.toList_append, String.toList_append, List.append_assoc]
    exact Text.cut?_append hname rfl
  rw [ofTyped, hcut]
  simp only [String.ofList_toList]

/-- What is typed in one part is read as an argument. -/
theorem ofTyped_solid (hname : Solid name) : ofTyped name = ofArgument name := by
  rw [ofTyped, Text.cut?_eq_none hname]

/-- A name that holds an equals sign is cut at the first. -/
theorem ofTyped_cut (hname : Solid (front ++ "=" ++ back)) (h : '=' ∉ front.toList) :
    ofTyped (front ++ "=" ++ back ++ " " ++ text) =
      (Json.valueOf (back ++ "=" ++ Text.trim text)).map fun j => ⟨front, j⟩ := by
  rw [ofTyped_spaced hname, ← ofArgument_marked h]
  simp only [String.append_assoc]

/-- The name that is read holds no equals sign. -/
theorem not_mem_of_ofTyped_spaced (hname : Solid name)
    (he : ofTyped (name ++ " " ++ text) = .ok e) : '=' ∉ e.name.toList := by
  by_cases h : '=' ∈ name.toList
  · obtain ⟨front, back, hsplit, hfront⟩ := List.eq_append_cons_of_mem h
    obtain rfl : name = String.ofList front ++ "=" ++ String.ofList back := by
      rw [← String.toList_inj, hsplit]
      simp
    rw [← String.toList_ofList (l := front)] at hfront
    rw [ofTyped_cut hname hfront] at he
    obtain ⟨j, -, rfl⟩ := map_eq_ok.mp he
    exact hfront
  · rw [ofTyped_spaced hname, ofArgument_marked h] at he
    obtain ⟨j, -, rfl⟩ := map_eq_ok.mp he
    exact h

theorem ofTyped_spaced_eq (hname : Solid name) (h : '=' ∉ name.toList)
    (hj : Json.parse text = .ok j) : ofTyped (name ++ " " ++ text) = .ok ⟨name, j⟩ := by
  rw [ofTyped_spaced hname, ofArgument_marked h, Json.valueOf, Json.parse_trim hj]
  rfl

/-- **Which event a typed line names.**  A name and the text of a value give the event of that
name with that value exactly if the name holds no equals sign; and such a name alone gives
the event without data. -/
theorem ofTyped_spaced_eq_iff (hname : Solid name) (hj : Json.parse text = .ok j) :
    (ofTyped (name ++ " " ++ text) = .ok ⟨name, j⟩ ↔ '=' ∉ name.toList) ∧
      ('=' ∉ name.toList → ofTyped name = .ok (.named name)) := by
  refine ⟨⟨fun he => ?_, fun h => ofTyped_spaced_eq hname h hj⟩, fun h => ?_⟩
  · exact not_mem_of_ofTyped_spaced hname he
  · rw [ofTyped_solid hname, ofArgument_plain h]

theorem ofTyped_spaced_eq_iff_go : Solid "GO" ∧ Json.parse " true " = .ok (.bool true) ∧
    (ofTyped ("GO" ++ " " ++ " true ") = .ok ⟨"GO", .bool true⟩ ↔
        '=' ∉ "GO".toList) ∧
      ('=' ∉ "GO".toList → ofTyped "GO" = .ok (.named "GO")) :=
  have hname : Solid "GO" := solid_of_all (by decide)
  have hj : Json.parse " true " = .ok (.bool true) := by cbv
  ⟨hname, hj, ofTyped_spaced_eq_iff hname hj⟩

/-- A name with an equals sign in it is not read as it is typed. -/
theorem exists_cut_name : Solid "a=b" ∧ Json.parse "true" = .ok (.bool true) ∧
    ofTyped ("a=b" ++ " " ++ "true") ≠ .ok ⟨"a=b", .bool true⟩ := by
  have hname : Solid "a=b" := solid_of_all (by decide)
  exact ⟨hname, by cbv, fun h => absurd (not_mem_of_ofTyped_spaced hname h) (by decide)⟩

end Event

end Statechart
