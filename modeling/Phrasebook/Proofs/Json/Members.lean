import Phrasebook.Json.Basic

/-!
# Members of objects

Setting a member changes what is found under its name and nothing else, and it never makes two
members of one name.  Members whose names are different are kept the way they are.
-/

namespace Phrasebook
namespace Json

variable {Value : Type}

theorem member?_setMember
    (name other : Text)
    (value : Value)
    (members : List (Text × Value)) :
    member? other (setMember name value members) =
      if other = name then some value else member? other members := by
  induction members with
  | nil => rfl
  | cons first rest ih =>
      obtain ⟨label, old⟩ := first
      by_cases here : name = label
      · subst here
        by_cases same : other = name <;> simp [setMember, member?, same]
      · by_cases same : other = label
        · subst same
          simp [setMember, member?, here, Ne.symm here]
        · simp [setMember, member?, here, same, ih]

/-- What is found among changed members is what was found before, changed in the same way. -/
theorem member?_map
    {Other : Type}
    (change : Value → Other)
    (name : Text)
    (members : List (Text × Value)) :
    member? name (members.map fun member => (member.1, change member.2)) =
      (member? name members).map change := by
  induction members with
  | nil => rfl
  | cons first rest ih =>
      obtain ⟨label, value⟩ := first
      by_cases here : name = label <;> simp [member?, here, ih]

theorem mem_names_setMember
    {name other : Text}
    {value : Value}
    {members : List (Text × Value)} :
    other ∈ (setMember name value members).map Prod.fst ↔
      other = name ∨ other ∈ members.map Prod.fst := by
  induction members with
  | nil => simp [setMember]
  | cons first rest ih =>
      obtain ⟨label, old⟩ := first
      by_cases here : name = label
      · simp [setMember, here]
      · rw [setMember, if_neg here, List.map_cons, List.mem_cons, ih, List.map_cons, List.mem_cons]
        exact or_left_comm

theorem nodup_setMember
    (name : Text)
    (value : Value)
    {members : List (Text × Value)}
    (distinct : (members.map Prod.fst).Nodup) :
    ((setMember name value members).map Prod.fst).Nodup := by
  induction members with
  | nil => simp [setMember]
  | cons first rest ih =>
      obtain ⟨label, old⟩ := first
      rw [List.map_cons, List.nodup_cons] at distinct
      by_cases here : name = label
      · subst here
        rw [setMember, if_pos rfl, List.map_cons, List.nodup_cons]
        exact distinct
      · rw [setMember, if_neg here, List.map_cons, List.nodup_cons, mem_names_setMember, not_or]
        exact ⟨⟨Ne.symm here, distinct.1⟩, ih distinct.2⟩

theorem setMember_of_not_mem
    {name : Text}
    {members : List (Text × Value)}
    (value : Value)
    (absent : name ∉ members.map Prod.fst) :
    setMember name value members = members ++ [(name, value)] := by
  induction members with
  | nil => rfl
  | cons first rest ih =>
      rw [List.map_cons, List.mem_cons, not_or] at absent
      rw [setMember, if_neg absent.1, ih absent.2, List.cons_append]

/-- Setting a member whose name is there changes its value and keeps all places. -/
theorem setMember_map
    {name : Text}
    {names : List Text}
    {before after : Text → Value}
    (distinct : names.Nodup)
    (present : name ∈ names)
    (elsewhere : ∀ other, other ≠ name → after other = before other) :
    setMember name (after name) (names.map fun other => (other, before other)) =
      names.map fun other => (other, after other) := by
  induction names with
  | nil => simp at present
  | cons first rest ih =>
      rw [List.nodup_cons] at distinct
      rw [List.map_cons, List.map_cons]
      by_cases here : name = first
      · subst here
        have others : rest.map (fun other => (other, before other)) =
            rest.map fun other => (other, after other) := by
          apply List.map_congr_left
          intro other member
          rw [elsewhere other fun same => distinct.1 (same ▸ member)]
        rw [setMember, if_pos rfl, others]
      · have later := (List.mem_cons.mp present).resolve_left here
        rw [setMember, if_neg here, ih distinct.2 later, elsewhere first (Ne.symm here)]

theorem foldl_setMember
    {front members : List (Text × Value)}
    (distinct : ((front ++ members).map Prod.fst).Nodup) :
    members.foldl (fun distinct member => setMember member.1 member.2 distinct) front =
      front ++ members := by
  induction members generalizing front with
  | nil => simp
  | cons member members ih =>
      have absent : member.1 ∉ front.map Prod.fst := by
        intro present
        rw [List.map_append, List.map_cons, List.nodup_append] at distinct
        exact distinct.2.2 _ present _ List.mem_cons_self rfl
      have regrouped : front ++ member :: members = (front ++ [member]) ++ members := by simp
      rw [regrouped] at distinct
      rw [List.foldl_cons, setMember_of_not_mem _ absent, ih distinct, regrouped]

/-- Members of different names are left as they are. -/
theorem distinctMembers_eq_self
    {members : List (Text × Value)}
    (distinct : (members.map Prod.fst).Nodup) :
    distinctMembers members = members :=
  foldl_setMember distinct

theorem member?_eq_none
    {name : Text}
    {members : List (Text × Value)}
    (absent : name ∉ members.map Prod.fst) :
    member? name members = none := by
  induction members with
  | nil => rfl
  | cons first rest ih =>
      rw [List.map_cons, List.mem_cons, not_or] at absent
      rw [member?, if_neg absent.1, ih absent.2]

/-- A member of different names is the one that is found under its name. -/
theorem member?_eq_some_iff
    {name : Text}
    {value : Value}
    {members : List (Text × Value)}
    (distinct : (members.map Prod.fst).Nodup) :
    member? name members = some value ↔ (name, value) ∈ members := by
  induction members with
  | nil => simp [member?]
  | cons first rest ih =>
      obtain ⟨label, found⟩ := first
      rw [List.map_cons, List.nodup_cons] at distinct
      by_cases here : name = label
      · subst here
        have elsewhere : (name, value) ∉ rest := fun member =>
          distinct.1 (List.mem_map.mpr ⟨_, member, rfl⟩)
        simp [member?, elsewhere, eq_comm]
      · simp [member?, here, ih distinct.2]

end Json
end Phrasebook
