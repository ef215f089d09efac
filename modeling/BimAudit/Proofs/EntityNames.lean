import BimAudit.Ifc.Reader
import BimAudit.Proofs.ParameterLiterals

/-!
# Names of entities

The parameters of a rooted object begin with its GUID, its owner history and its name. An entity is
named by the second string literal of its record, though, wherever that stands. So it has the name
that its record gives it as long as no literal stands in the owner history; and where the record
gives none, the entity has none only if no other parameter holds a literal either, at any depth. A
description then stands in for the missing name.

* `find?_withAttribute`: what a further attribute changes.
* `Rooted.strings_eq`: the literals of a rooted object, parameter by parameter.
* `name_of_rooted`: **when an entity has the name of its record, and when it has none.**
  `exists_named_by_description`: an entity without a name that has one.
-/

namespace BimAudit.Ifc

open Step (Record isDoubled decode literals splitParameters)

/-! ### Attributes -/

@[simp] theorem find?_withAttribute (name k : String) (value : Option String)
    (d : Dictionary String) : (withAttribute name value d).find? k
      = if k = name then value.or (d.find? k) else d.find? k := by
  unfold withAttribute
  cases value with
  | none => simp
  | some v => simp

namespace Entity

/-- The entity shows the name, and has it as an attribute. -/
def Bears (e : Entity) (name : String) : Prop :=
  e.name = name ∧ e.attributes.find? "Name" = some name

/-- The entity shows a dash in place of a name, and has no such attribute. -/
def Nameless (e : Entity) : Prop := e.name = "-" ∧ e.attributes.find? "Name" = none

end Entity

/-! ### Rooted objects -/

/-- The parameter is a string literal, with this text between its apostrophes. -/
def IsLiteral (p body : List Char) : Prop := p = '\'' :: body ++ ['\''] ∧ isDoubled body = true

instance (p body : List Char) : Decidable (IsLiteral p body) :=
  inferInstanceAs (Decidable (_ ∧ _))

/-- The parameters begin with a GUID, which is a literal and not empty, an owner history and a
name. -/
structure Rooted (r : Record) (guid owner name : List Char) (rest : List (List Char)) : Prop where
  parameters : splitParameters r.parameters = ('\'' :: guid ++ ['\'']) :: owner :: name :: rest
  doubled : isDoubled guid = true
  decoded : decode guid ≠ []

variable {r : Record} {p body guid owner name : List Char} {rest : List (List Char)}

theorem literals_of_isLiteral (h : IsLiteral p body) : literals p = [decode body] := by
  obtain ⟨rfl, hbody⟩ := h
  have hend : ([] : List Char).head? ≠ some '\'' := nofun
  have hliteral := Step.literals_literal hbody hend
  rwa [Step.literals_nil] at hliteral

/-- The literals behind the GUID are those of the other parameters. -/
theorem Rooted.strings_eq (h : Rooted r guid owner name rest) : r.strings
    = String.ofList (decode guid) ::
      ((owner :: name :: rest).flatMap literals).map String.ofList := by
  have hguid : literals ('\'' :: guid ++ ['\'']) = [decode guid] :=
    literals_of_isLiteral ⟨rfl, h.doubled⟩
  unfold Record.strings
  rw [Step.literals_eq_flatMap, h.parameters, List.flatMap_cons, hguid]
  rfl

/-- The entity of a rooted object is named by the first literal behind the GUID. -/
theorem Rooted.entity?_eq (h : Rooted r guid owner name rest) (htype : isObjectType r.type = true)
    (file : String) (st : Store) (l : Links) : ∃ e, entity? file st l r = some e ∧
      e.guid = String.ofList (decode guid) ∧
      e.attributes.find? "Name"
        = (((owner :: name :: rest).flatMap literals).map String.ofList).head? ∧
      e.name = (((owner :: name :: rest).flatMap literals).map String.ofList).head?.getD "-" := by
  have hne : String.ofList (decode guid) ≠ "" := by
    intro heq
    have hchars := congrArg String.toList heq
    rw [String.toList_ofList] at hchars
    exact h.decoded hchars
  unfold entity?
  rw [if_pos htype, h.strings_eq]
  simp only [if_neg hne]
  refine ⟨_, rfl, rfl, ?_, rfl⟩
  have hempty : (∅ : Dictionary String).find? "Name" = none := rfl
  simp [hempty]

/-- **The names of rooted objects.** A rooted object always has an entity. If the third parameter of
its record is a literal, the entity bears that name, unless a literal in the owner history comes
first and says something else. If the third parameter is left open, the entity is nameless exactly
if no other parameter behind the GUID holds a literal; otherwise the first of these is its name. -/
theorem name_of_rooted (file : String) (st : Store) (l : Links)
    (htype : isObjectType r.type = true) (h : Rooted r guid owner name rest) :
    ∃ e, entity? file st l r = some e ∧ e.guid = String.ofList (decode guid) ∧
      (∀ body, IsLiteral name body →
        (e.Bears (String.ofList (decode body)) ↔
          ∀ s ∈ (literals owner).head?, s = decode body)) ∧
      (name = ['$'] → (e.Nameless ↔ ∀ p ∈ owner :: rest, literals p = []) ∧
        ∀ s ∈ ((owner :: rest).flatMap literals).head?, e.Bears (String.ofList s)) := by
  obtain ⟨e, he, hguid, hattribute, hname⟩ := h.entity?_eq htype file st l
  refine ⟨e, he, hguid, ?_, ?_⟩
  · intro body hbody
    unfold Entity.Bears
    rw [hname, hattribute, List.flatMap_cons, List.flatMap_cons, literals_of_isLiteral hbody]
    cases literals owner with
    | nil => simp
    | cons s ss => simp [String.ofList_inj]
  · rintro rfl
    have hopen : literals ['$'] = [] := Step.literals_of_not_mem (by decide)
    unfold Entity.Nameless Entity.Bears
    rw [hname, hattribute, List.flatMap_cons, List.flatMap_cons, hopen, List.nil_append,
      ← List.flatMap_cons]
    cases hs : (owner :: rest).flatMap literals with
    | nil =>
      refine ⟨iff_of_true ⟨rfl, rfl⟩ (List.flatMap_eq_nil_iff.1 hs), ?_⟩
      intro s hs
      cases hs
    | cons s ss =>
      have hsome : ¬∀ p ∈ owner :: rest, literals p = [] := by
        intro hall
        rw [List.flatMap_eq_nil_iff.2 hall] at hs
        cases hs
      refine ⟨iff_of_false (fun hnone => nomatch hnone.2) hsome, ?_⟩
      intro t ht
      cases ht
      exact ⟨rfl, rfl⟩

/-- A wall with a name, and with a literal in a list behind it. -/
def namedWall : Record := ⟨1, "IFCWALL", "'W1',#2,'O''Brien',$,('x')".toList⟩

/-- A wall without a name. -/
def namelessWall : Record := ⟨2, "IFCWALL", "'W2',#2,$,$,(.T.,1.)".toList⟩

/-- The name is read with its apostrophe, and the wall without a name has none. -/
theorem name_of_rooted_walls :
    isObjectType namedWall.type = true ∧
      Rooted namedWall "W1".toList "#2".toList "'O''Brien'".toList ["$".toList, "('x')".toList] ∧
      IsLiteral "'O''Brien'".toList "O''Brien".toList ∧
      (∃ e, entity? "a.ifc" {} {} namedWall = some e ∧ e.guid = "W1" ∧ e.Bears "O'Brien") ∧
      isObjectType namelessWall.type = true ∧
      Rooted namelessWall "W2".toList "#2".toList ['$'] ["$".toList, "(.T.,1.)".toList] ∧
      (∃ e, entity? "a.ifc" {} {} namelessWall = some e ∧ e.guid = "W2" ∧ e.Nameless) := by
  have hnamed : isObjectType namedWall.type = true ∧
      Rooted namedWall "W1".toList "#2".toList "'O''Brien'".toList
        ["$".toList, "('x')".toList] := ⟨by decide +kernel, by decide, by decide, by decide +kernel⟩
  have hnameless : isObjectType namelessWall.type = true ∧
      Rooted namelessWall "W2".toList "#2".toList ['$'] ["$".toList, "(.T.,1.)".toList] :=
    ⟨by decide +kernel, by decide, by decide, by decide +kernel⟩
  have hliteral : IsLiteral "'O''Brien'".toList "O''Brien".toList := by decide
  obtain ⟨e, he, hguid, hname, -⟩ := name_of_rooted "a.ifc" {} {} hnamed.1 hnamed.2
  obtain ⟨e', he', hguid', -, hopen⟩ := name_of_rooted "a.ifc" {} {} hnameless.1 hnameless.2
  refine ⟨hnamed.1, hnamed.2, hliteral, ⟨e, he, hguid.trans (by decide +kernel), ?_⟩,
    hnameless.1, hnameless.2, ⟨e', he', hguid'.trans (by decide +kernel), ?_⟩⟩
  · have hbears := (hname _ hliteral).2 (by decide +kernel)
    have hdecoded : String.ofList (decode "O''Brien".toList) = "O'Brien" := by decide +kernel
    rwa [hdecoded] at hbears
  · exact (hopen rfl).1.2 (by decide +kernel)

/-- A wall without a name that has a description. -/
def describedWall : Record := ⟨1, "IFCWALL", "'W1',$,$,'Load bearing',$".toList⟩

/-- **A description stands in for a missing name.** The third parameter is left open, and still the
entity is named. -/
theorem exists_named_by_description : isObjectType describedWall.type = true ∧
    Rooted describedWall "W1".toList "$".toList ['$'] ["'Load bearing'".toList, "$".toList] ∧
    ∃ e, entity? "a.ifc" {} {} describedWall = some e ∧ e.Bears "Load bearing" ∧ ¬e.Nameless := by
  have htype : isObjectType describedWall.type = true := by decide +kernel
  have h : Rooted describedWall "W1".toList "$".toList ['$']
      ["'Load bearing'".toList, "$".toList] := ⟨by decide, by decide, by decide +kernel⟩
  obtain ⟨e, he, -, hattribute, hname⟩ := h.entity?_eq htype "a.ifc" {} {}
  have hliterals : (["$".toList, ['$'], "'Load bearing'".toList, "$".toList].flatMap literals).map
      String.ofList = ["Load bearing"] := by decide +kernel
  rw [hliterals] at hattribute hname
  refine ⟨htype, h, e, he, ⟨hname, hattribute⟩, ?_⟩
  rintro ⟨-, hnone⟩
  rw [hattribute] at hnone
  cases hnone

end BimAudit.Ifc
