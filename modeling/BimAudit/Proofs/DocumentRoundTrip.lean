import BimAudit.Proofs.RestrictionRoundTrip

/-!
# Documents are read back

A document in canonical form is read back from its own text: information, specifications and facets
are found where the writer put them.

* `Document.Canonical`: no text that the reader would trim or take for missing, and no cardinality
  that is not written.
* `Facet.ofElement?_toMarkup`, `Specification.ofElement_toMarkup`, `Info.foldl_addElement`: the
  parts of a document are read back from their elements.
* `plain_toMarkup`: the writer uses plain names only.
* `ofXml_toXml`: **a canonical document is read back from its text.**
-/

namespace BimAudit.Ids

open Xml (Element Markup IsName AreAttributes readAttributes)
open Xml.Markup (readName readText)

/-! ### Canonical form -/

/-- The type of data and the address that a condition may give. -/
def Condition.hints : Condition → List (Option String)
  | property _ _ _ dataType uri => [dataType, uri]
  | classification _ _ uri => [uri]
  | material _ uri => [uri]
  | _ => []

/-- The restrictions of the facet are canonical, and what it says beside them is not empty. -/
structure Facet.Canonical (f : Facet) : Prop where
  values : ∀ v ∈ f.values, v.Canonical
  hints : ∀ o ∈ f.condition.hints, ∀ s ∈ o, Filled s
  instructions : ∀ s ∈ f.instructions, Filled s

/-- The facets are canonical, and a cardinality other than the usual one is written. -/
structure Specification.Canonical (s : Specification) : Prop where
  notes : ∀ o ∈ [s.identifier, s.description, s.instructions], ∀ t ∈ o, Filled t
  applicability : ∀ f ∈ s.applicability, f.Canonical ∧ f.cardinality = .required
  requirements : ∀ f ∈ s.requirements,
    f.Canonical ∧ (f.kind = .entity → f.cardinality = .required)

/-- The information and the specifications of the document are in canonical form. -/
structure Document.Canonical (d : Document) : Prop where
  info : ∀ f ∈ d.info.fields, ∀ s ∈ f.2, Filled s
  specifications : ∀ s ∈ d.specifications, s.Canonical

instance (f : Facet) : Decidable f.Canonical :=
  decidable_of_iff ((∀ v ∈ f.values, v.Canonical) ∧
      (∀ o ∈ f.condition.hints, ∀ s ∈ o, Filled s) ∧ ∀ s ∈ f.instructions, Filled s)
    ⟨fun h => ⟨h.1, h.2.1, h.2.2⟩, fun h => ⟨h.values, h.hints, h.instructions⟩⟩

instance (s : Specification) : Decidable s.Canonical :=
  decidable_of_iff
    ((∀ o ∈ [s.identifier, s.description, s.instructions], ∀ t ∈ o, Filled t) ∧
      (∀ f ∈ s.applicability, f.Canonical ∧ f.cardinality = .required) ∧
      ∀ f ∈ s.requirements, f.Canonical ∧ (f.kind = .entity → f.cardinality = .required))
    ⟨fun h => ⟨h.1, h.2.1, h.2.2⟩, fun h => ⟨h.notes, h.applicability, h.requirements⟩⟩

instance (d : Document) : Decidable d.Canonical :=
  decidable_of_iff
    ((∀ f ∈ d.info.fields, ∀ s ∈ f.2, Filled s) ∧ ∀ s ∈ d.specifications, s.Canonical)
    ⟨fun h => ⟨h.1, h.2⟩, fun h => ⟨h.info, h.specifications⟩⟩

/-! ### Attributes of facets -/

namespace Condition

/-- The type of data of a property. -/
def dataType : Condition → Option String
  | property _ _ _ dataType _ => dataType
  | _ => none

/-- The name of the relationship between a part and its whole. -/
def relationName : Condition → Option String
  | partOf _ relation => relation.map Relation.name
  | _ => none

/-- The address that leads on. -/
def uri : Condition → Option String
  | property _ _ _ _ uri => uri
  | classification _ _ uri => uri
  | material _ uri => uri
  | _ => none

end Condition

namespace Facet

variable {f : Facet}

/-- All attributes of a facet; those that its condition does not have are missing. -/
def parts (isRequirement : Bool) (f : Facet) : List (String × Option String) :=
  [("dataType", f.condition.dataType), ("relation", f.condition.relationName),
    ("cardinality", if isRequirement ∧ f.kind ≠ .entity then some f.cardinality.name else none),
    ("uri", f.condition.uri), ("instructions", f.instructions)]

theorem attributes_eq (isRequirement : Bool) (f : Facet) :
    f.attributes isRequirement = attributesOf (f.parts isRequirement) := by
  obtain ⟨condition, cardinality, instructions⟩ := f
  cases condition <;> rfl

/-- The attributes of a facet have different names, which are read as they are written. -/
theorem named_parts (isRequirement : Bool) (f : Facet) : Named (f.parts isRequirement)
    ["dataType", "relation", "cardinality", "uri", "instructions"]
    ["dataType", "relation", "cardinality", "uri", "instructions"] where
  keys := rfl
  isName := by decide
  nodup := by decide
  read := by decide
  nodup_read := by decide

theorem element_attributes (isRequirement : Bool) (f : Facet) :
    (f.toMarkup isRequirement).element.attributes
      = readAttributes (attributesOf (f.parts isRequirement)) := by
  rw [toMarkup, Markup.element, attributes_eq]
  rfl

/-- The cardinality is read back where it is written: at requirements other than entities. -/
theorem attribute?_cardinality (isRequirement : Bool) (f : Facet) :
    (f.toMarkup isRequirement).element.attribute? "cardinality"
      = if isRequirement ∧ f.kind ≠ .entity then some f.cardinality.name else none :=
  attribute?_eq (element_attributes _ f) (named_parts _ f) 2 rfl rfl

theorem attributeText?_instructions (h : f.Canonical) (isRequirement : Bool) :
    attributeText? (f.toMarkup isRequirement).element "instructions" = f.instructions :=
  attributeText?_eq (attribute?_eq (element_attributes _ f) (named_parts _ f) 4 rfl rfl)
    h.instructions

/-- The address of a canonical facet is read back. -/
theorem attributeText?_uri (h : f.Canonical) (isRequirement : Bool) :
    attributeText? (f.toMarkup isRequirement).element "uri" = f.condition.uri := by
  apply attributeText?_eq (attribute?_eq (element_attributes _ f) (named_parts _ f) 3 rfl rfl)
  intro s hs
  have hhints := h.hints
  obtain ⟨condition, cardinality, instructions⟩ := f
  cases condition <;> simp_all [Condition.uri, Condition.hints]

/-- The type of data of a canonical facet is read back. -/
theorem attributeText?_dataType (h : f.Canonical) (isRequirement : Bool) :
    attributeText? (f.toMarkup isRequirement).element "dataType" = f.condition.dataType := by
  apply attributeText?_eq (attribute?_eq (element_attributes _ f) (named_parts _ f) 0 rfl rfl)
  intro s hs
  have hhints := h.hints
  obtain ⟨condition, cardinality, instructions⟩ := f
  cases condition <;> simp_all [Condition.dataType, Condition.hints]

theorem filled_name (r : Relation) : Filled r.name := by
  cases r <;> decide

/-- The relationship of a whole is read back by its name. -/
theorem attributeText?_relation (f : Facet) (isRequirement : Bool) :
    attributeText? (f.toMarkup isRequirement).element "relation" = f.condition.relationName := by
  apply attributeText?_eq (attribute?_eq (element_attributes _ f) (named_parts _ f) 1 rfl rfl)
  intro s hs
  obtain ⟨condition, cardinality, instructions⟩ := f
  cases condition with
  | partOf whole relation =>
    obtain ⟨r, -, rfl⟩ := Option.map_eq_some_iff.1 hs
    exact filled_name r
  | _ => cases hs

end Facet

/-! ### Conditions -/

/-- A restriction with the name of its element, as markup. -/
def namedPart (p : String × Value) : Markup := p.2.named p.1

section Children

variable {e : Element} {vs : List (String × Option Value)} {ks ns : List String}

/-- **A restriction is found under the name of its part**, and none under that of a part that is
missing. -/
theorem childValue?_eq (he : e.children = Markup.elements ((presentParts vs).map namedPart))
    (h : Named vs ks ns) (hvs : ∀ a ∈ vs, ∀ v ∈ a.2, v.Canonical) (i : Nat) {k n : String}
    {o : Option Value} (ho : vs[i]? = some (k, o)) (hn : ns[i]? = some n) :
    childValue? e n = o := by
  have hname : ∀ p, (namedPart p).element.name = readName p.1 := by
    intro p
    unfold namedPart
    rw [element_named]
  have hfind := find?_presentParts (f := fun p => (namedPart p).element) (g := (·.name)) hname h i
    ho hn
  have hmem := List.mem_of_getElem? ho
  have hchild : e.child? n = o.map fun v => (v.named k).element := by
    unfold Element.child?
    rw [he, elements_eq_map, List.map_map]
    exact hfind
  unfold childValue?
  rw [hchild]
  cases o with
  | none => rfl
  | some v =>
    rw [Option.map_some, Option.bind_some]
    exact Value.ofElement?_named (hvs _ hmem v rfl) k

end Children

/-- The names of the parts of a condition of some kind. -/
def FacetKind.partNames : FacetKind → List String
  | entity => ["name", "predefinedType"]
  | property => ["propertySet", "baseName", "value"]
  | .attribute => ["name", "value"]
  | classification => ["value", "system"]
  | material => ["value"]
  | partOf => ["name"]

namespace Condition

/-- The restrictions of a condition with the names of their elements, as they are written. -/
def parts : Condition → List (String × Option Value)
  | entity name predefinedType => [("name", some name), ("predefinedType", predefinedType)]
  | property set name value _ _ =>
    [("propertySet", some set), ("baseName", some name), ("value", value)]
  | .attribute name value => [("name", some name), ("value", value)]
  | classification system value _ => [("value", value), ("system", system)]
  | material value _ => [("value", value)]
  | partOf whole _ => [("name", some whole)]

theorem mem_values_of_mem_parts {c : Condition} {a : String × Option Value} (ha : a ∈ c.parts)
    {v : Value} (hv : v ∈ a.2) : v ∈ c.values := by
  rw [Option.mem_def] at hv
  cases c <;> grind [parts, values]

/-- The parts of a condition have different names, which are read as they are written. -/
theorem named_parts (c : Condition) : Named c.parts c.kind.partNames c.kind.partNames where
  keys := by cases c <;> rfl
  isName := by
    cases c.kind <;> decide
  nodup := by
    cases c.kind <;> decide
  read := by
    cases c.kind <;> decide
  nodup_read := by
    cases c.kind <;> decide

/-- The parts stand right in the element of the facet, but for a whole, which has an element of its
own around its name. -/
theorem toMarkup_eq (c : Condition) :
    c.toMarkup = match c with
      | partOf .. => [.block "entity" [] ((presentParts c.parts).map namedPart)]
      | c => (presentParts c.parts).map namedPart := by
  cases c with
  | entity name predefinedType => cases predefinedType <;> rfl
  | property set name value dataType uri => cases value <;> rfl
  | «attribute» name value => cases value <;> rfl
  | classification system value uri => cases system <;> cases value <;> rfl
  | material value uri => cases value <;> rfl
  | partOf whole relation => rfl

end Condition

theorem Relation.ofText?_name (r : Relation) : Relation.ofText? r.name = some r := by
  cases r <;> decide

/-- **A condition is read back from the element of its facet.** -/
theorem Condition.ofElement_toMarkup {f : Facet} (h : f.Canonical) (isRequirement : Bool) :
    Condition.ofElement f.kind (f.toMarkup isRequirement).element = f.condition := by
  have huri := Facet.attributeText?_uri h isRequirement
  have hdataType := Facet.attributeText?_dataType h isRequirement
  have hrelation := Facet.attributeText?_relation f isRequirement
  have hnamed := f.condition.named_parts
  have hcanonical : ∀ a ∈ f.condition.parts, ∀ v ∈ a.2, v.Canonical :=
    fun a ha v hv => h.values v (Condition.mem_values_of_mem_parts ha hv)
  have hchildren : (f.toMarkup isRequirement).element.children
      = Markup.elements f.condition.toMarkup := rfl
  rw [Condition.toMarkup_eq] at hchildren
  -- from here on only what is looked up in the element counts
  generalize (f.toMarkup isRequirement).element = e at *
  obtain ⟨condition, cardinality, instructions⟩ := f
  cases condition with
  | entity name predefinedType =>
    have hname := childValue?_eq hchildren hnamed hcanonical 0 rfl rfl
    have htype := childValue?_eq hchildren hnamed hcanonical 1 rfl rfl
    show Condition.entity (needed (childValue? e "name")) (childValue? e "predefinedType") = _
    rw [hname, htype]
    rfl
  | property set name value dataType uri =>
    have hset := childValue?_eq hchildren hnamed hcanonical 0 rfl rfl
    have hname := childValue?_eq hchildren hnamed hcanonical 1 rfl rfl
    have hvalue := childValue?_eq hchildren hnamed hcanonical 2 rfl rfl
    show Condition.property (needed (childValue? e "propertySet"))
      (needed ((childValue? e "baseName").or (childValue? e "name"))) (childValue? e "value")
      (attributeText? e "dataType") (attributeText? e "uri") = _
    rw [hset, hname, hvalue, hdataType, huri]
    rfl
  | «attribute» name value =>
    have hname := childValue?_eq hchildren hnamed hcanonical 0 rfl rfl
    have hvalue := childValue?_eq hchildren hnamed hcanonical 1 rfl rfl
    show Condition.attribute (needed (childValue? e "name")) (childValue? e "value") = _
    rw [hname, hvalue]
    rfl
  | classification system value uri =>
    have hvalue := childValue?_eq hchildren hnamed hcanonical 0 rfl rfl
    have hsystem := childValue?_eq hchildren hnamed hcanonical 1 rfl rfl
    show Condition.classification (childValue? e "system") (childValue? e "value")
      (attributeText? e "uri") = _
    rw [hsystem, hvalue, huri]
    rfl
  | material value uri =>
    have hvalue := childValue?_eq hchildren hnamed hcanonical 0 rfl rfl
    show Condition.material (childValue? e "value") (attributeText? e "uri") = _
    rw [hvalue, huri]
    rfl
  | partOf whole relation =>
    -- the name stands in an element of its own
    have hinner : (Markup.block "entity" []
        ((presentParts [("name", some whole)]).map namedPart)).element.children
        = Markup.elements ((presentParts [("name", some whole)]).map namedPart) := by
      rw [Markup.element]
    have hentity : e.child? "entity" = some (Markup.block "entity" []
        ((presentParts [("name", some whole)]).map namedPart)).element := by
      unfold Element.child?
      rw [hchildren]
      rfl
    have hname := childValue?_eq hinner hnamed hcanonical 0 rfl rfl
    have hof : (attributeText? e "relation").bind Relation.ofText? = relation := by
      rw [hrelation]
      show (relation.map Relation.name).bind Relation.ofText? = relation
      cases relation with
      | none => rfl
      | some r => rw [Option.map_some, Option.bind_some, Relation.ofText?_name]
    show Condition.partOf (needed ((e.child? "entity").bind fun w =>
      (childValue? w "name").or (Value.ofElement? w)))
      ((attributeText? e "relation").bind Relation.ofText?) = _
    rw [hentity, Option.bind_some, hname, hof]
    rfl

/-! ### Facets -/

theorem Cardinality.ofText_name (c : Cardinality) : Cardinality.ofText c.name = c := by
  cases c <;> decide

/-- A kind of facet is known by the name of its element. -/
theorem FacetKind.ofName?_readName (k : FacetKind) :
    FacetKind.ofName? (readName k.name) = some k := by
  cases k <;> decide

/-- **A facet is read back from its element**, if its cardinality is written or the usual one. -/
theorem Facet.ofElement?_toMarkup {f : Facet} {isRequirement : Bool} (h : f.Canonical)
    (hcard : ¬ (isRequirement ∧ f.kind ≠ .entity) → f.cardinality = .required) :
    Facet.ofElement? isRequirement (f.toMarkup isRequirement).element = some f := by
  have hname : (f.toMarkup isRequirement).element.name = readName f.kind.name := rfl
  have hcardinality : (if isRequirement then
      Cardinality.ofText (((f.toMarkup isRequirement).element.attribute? "cardinality").getD "")
      else .required) = f.cardinality := by
    rw [attribute?_cardinality]
    -- a cardinality that is not written is the usual one
    by_cases hwritten : isRequirement ∧ f.kind ≠ .entity
    · rw [if_pos hwritten.1, if_pos hwritten]
      exact Cardinality.ofText_name _
    · have hdefault : Cardinality.ofText "" = .required := by decide
      rw [if_neg hwritten, hcard hwritten, Option.getD_none, hdefault, ite_self]
  unfold Facet.ofElement?
  rw [hname, FacetKind.ofName?_readName, Option.map_some, Condition.ofElement_toMarkup h,
    attributeText?_instructions h isRequirement, hcardinality]

theorem filterMap_eq_self {α : Type} {g : α → Option α} {l : List α}
    (h : ∀ a ∈ l, g a = some a) : l.filterMap g = l := by
  induction l with
  | nil => rfl
  | cons a l ih =>
    rw [List.filterMap_cons, h a List.mem_cons_self,
      ih fun b hb => h b (List.mem_cons_of_mem _ hb)]

/-- **Facets are read back in their order**, given that a cardinality which is not written is the
usual one. -/
theorem facetsIn_eq {e : Element} {name : String} {fs : List Facet} {isRequirement : Bool}
    (he : e.child? name
      = some (Markup.block name [] (fs.map (Facet.toMarkup isRequirement))).element)
    (h : ∀ f ∈ fs, f.Canonical ∧
      (¬ (isRequirement ∧ f.kind ≠ .entity) → f.cardinality = .required)) :
    facetsIn e name isRequirement = fs := by
  have hchildren : (Markup.block name [] (fs.map (Facet.toMarkup isRequirement))).element.children
      = fs.map fun f => (f.toMarkup isRequirement).element := by
    rw [Markup.element, elements_eq_map, List.map_map]
    rfl
  unfold facetsIn
  rw [he]
  simp only [hchildren]
  rw [List.filterMap_map]
  apply filterMap_eq_self
  intro f hf
  rw [Function.comp_apply]
  exact Facet.ofElement?_toMarkup (h f hf).1 (h f hf).2

/-! ### Specifications -/

namespace Specification

/-- The attributes of a specification. -/
def parts (s : Specification) : List (String × Option String) :=
  [("name", some s.name), ("ifcVersion", some s.ifcVersion), ("identifier", s.identifier),
    ("description", s.description), ("instructions", s.instructions), ("minOccurs", some "1"),
    ("maxOccurs", some "unbounded")]

/-- The attributes of a specification have different names, which are read as they are written. -/
theorem named_parts (s : Specification) : Named s.parts
    ["name", "ifcVersion", "identifier", "description", "instructions", "minOccurs", "maxOccurs"]
    ["name", "ifcVersion", "identifier", "description", "instructions", "minOccurs", "maxOccurs"]
    where
  keys := rfl
  isName := by decide
  nodup := by decide
  read := by decide
  nodup_read := by decide

/-- **A specification is read back from its element.** -/
theorem ofElement_toMarkup {s : Specification} (h : s.Canonical) :
    Specification.ofElement s.toMarkup.element = s := by
  have he : s.toMarkup.element.attributes = readAttributes (attributesOf s.parts) := by
    rw [toMarkup, Markup.element]
    rfl
  have hname := attribute?_eq he s.named_parts 0 rfl rfl
  have hversion := attribute?_eq he s.named_parts 1 rfl rfl
  have hidentifier := attributeText?_eq (attribute?_eq he s.named_parts 2 rfl rfl)
    (h.notes _ List.mem_cons_self)
  have hdescription := attributeText?_eq (attribute?_eq he s.named_parts 3 rfl rfl)
    (h.notes _ (List.mem_cons_of_mem _ List.mem_cons_self))
  have hinstructions := attributeText?_eq (attribute?_eq he s.named_parts 4 rfl rfl)
    (h.notes _ (List.mem_cons_of_mem _ (List.mem_cons_of_mem _ List.mem_cons_self)))
  have happlicability : facetsIn s.toMarkup.element "applicability" false = s.applicability := by
    refine facetsIn_eq ?_ fun f hf => ⟨(h.applicability f hf).1, fun _ => (h.applicability f hf).2⟩
    rw [toMarkup, Markup.element]
    rfl
  have hrequirements : facetsIn s.toMarkup.element "requirements" true = s.requirements := by
    refine facetsIn_eq ?_ fun f hf => ⟨(h.requirements f hf).1, ?_⟩
    · rw [toMarkup, Markup.element]
      rfl
    · intro hkind
      refine (h.requirements f hf).2 ?_
      by_cases hentity : f.kind = .entity
      · exact hentity
      · exact absurd ⟨rfl, hentity⟩ hkind
  unfold Specification.ofElement
  rw [hname, hversion, hidentifier, hdescription, hinstructions, happlicability, hrequirements]
  rfl

end Specification

/-! ### Information -/

namespace Info

theorem mem_names {i : Info} {f : String × Option String} (h : f ∈ i.fields) : f.1 ∈ names := by
  have hnames : names = i.fields.map (·.1) := rfl
  rw [hnames]
  exact List.mem_map.2 ⟨f, h, rfl⟩

/-- A field as it is read. -/
def fieldElement (f : String × String) : Element := { name := readName f.1, text := readText f.2 }

/-- Gives a field its value, if there is one. -/
def setField (i : Info) (f : String × Option String) : Info :=
  match f.2 with
  | some s => i.set f.1 s
  | none => i

/-- A field of the information is read back from its element. -/
theorem addElement_fieldElement (i : Info) {f : String × String} (hname : readName f.1 = f.1)
    (h : Filled f.2) : i.addElement (fieldElement f) = i.set f.1 f.2 := by
  have hempty : f.2.isEmpty = false := by
    rw [← Bool.not_eq_true, String.isEmpty_iff]
    exact h.2
  unfold addElement fieldElement
  simp only [readText_of_trimmed h.1, hname]
  rw [h.1, hempty]
  rfl

/-- The fields are read back one after the other, and those that are missing change nothing. -/
theorem foldl_addElement {fs : List (String × Option String)}
    (hname : ∀ f ∈ fs, readName f.1 = f.1) (h : ∀ f ∈ fs, ∀ s ∈ f.2, Filled s) (i : Info) :
    ((presentParts fs).map fieldElement).foldl addElement i = fs.foldl setField i := by
  induction fs generalizing i with
  | nil => rfl
  | cons f fs ih =>
    have hrest := ih (fun g hg => hname g (List.mem_cons_of_mem _ hg))
      fun g hg => h g (List.mem_cons_of_mem _ hg)
    obtain ⟨k, o⟩ := f
    cases o with
    | none => exact hrest i
    | some s =>
      have hk : readName k = k := hname (k, some s) List.mem_cons_self
      have hs : Filled s := h (k, some s) List.mem_cons_self s rfl
      have hfield : i.addElement (fieldElement (k, s)) = i.set k s :=
        addElement_fieldElement i (f := (k, s)) hk hs
      have hset : setField i (k, some s) = i.set k s := rfl
      rw [presentParts_cons_some, List.map_cons, List.foldl_cons, List.foldl_cons, hfield, hset,
        hrest]

/-- Each field has a name of its own, so setting all of them gives the information back. -/
theorem foldl_setField (i : Info) : i.fields.foldl setField {} = i := by
  obtain ⟨title, copyright, version, description, author, date, purpose, milestone⟩ := i
  have htitle : setField {} ("title", title) = { title } := by cases title <;> rfl
  have hcopyright : setField { title } ("copyright", copyright) = { title, copyright } := by
    cases copyright <;> rfl
  have hversion : setField { title, copyright } ("version", version)
      = { title, copyright, version } := by
    cases version <;> rfl
  have hdescription : setField { title, copyright, version } ("description", description)
      = { title, copyright, version, description } := by
    cases description <;> rfl
  have hauthor : setField { title, copyright, version, description } ("author", author)
      = { title, copyright, version, description, author } := by
    cases author <;> rfl
  have hdate : setField { title, copyright, version, description, author } ("date", date)
      = { title, copyright, version, description, author, date } := by
    cases date <;> rfl
  have hpurpose : setField { title, copyright, version, description, author, date }
      ("purpose", purpose)
      = { title, copyright, version, description, author, date, purpose } := by
    cases purpose <;> rfl
  have hmilestone : setField { title, copyright, version, description, author, date, purpose }
      ("milestone", milestone)
      = ⟨title, copyright, version, description, author, date, purpose, milestone⟩ := by
    cases milestone <;> rfl
  simp only [fields, List.foldl_cons, List.foldl_nil]
  rw [htitle, hcopyright, hversion, hdescription, hauthor, hdate, hpurpose, hmilestone]

end Info

/-! ### Documents -/

/-- **The information is read back** if none of its fields is blank. -/
theorem Info.foldl_children {i : Info} (h : ∀ f ∈ i.fields, ∀ s ∈ f.2, Filled s) :
    i.toMarkup.element.children.foldl Info.addElement {} = i := by
  have hchildren : i.toMarkup.element.children = (presentParts i.fields).map Info.fieldElement := by
    rw [Info.toMarkup, Markup.element, elements_eq_map, List.map_map]
    rfl
  have hname : ∀ f ∈ i.fields, readName f.1 = f.1 := by
    have hnames : ∀ n ∈ Info.names, readName n = n := by decide
    intro f hf
    exact hnames f.1 (Info.mem_names (i := i) hf)
  rw [hchildren, Info.foldl_addElement hname h, Info.foldl_setField]

/-- The specifications are read back in their order. -/
theorem map_specifications {ss : List Specification} (h : ∀ s ∈ ss, s.Canonical) :
    ((Markup.block "specifications" [] (ss.map Specification.toMarkup)).element.childrenNamed
      "specification").map Specification.ofElement = ss := by
  have hchildren : (Markup.block "specifications" []
      (ss.map Specification.toMarkup)).element.children
      = ss.map fun s => s.toMarkup.element := by
    rw [Markup.element, elements_eq_map, List.map_map]
    rfl
  have hname : readName "specification" = "specification" := by decide
  unfold Element.childrenNamed
  rw [hchildren, List.filter_eq_self.2]
  · rw [List.map_map, List.map_congr_left (g := id), List.map_id]
    intro s hs
    exact Specification.ofElement_toMarkup (h s hs)
  · intro e he
    obtain ⟨s, -, rfl⟩ := List.mem_map.1 he
    rw [decide_eq_true_eq, Specification.toMarkup, Markup.element, hname]

/-- **A canonical document is read back from its root element.** -/
theorem Document.ofElement_toMarkup {d : Document} (h : d.Canonical) :
    Document.ofElement d.toMarkup.element = .ok d := by
  have hroot : d.toMarkup.element.name = "ids" := by
    show readName "ids" = "ids"
    decide
  have hinfo : d.toMarkup.element.child? "info" = some d.info.toMarkup.element := by
    unfold Element.child?
    rw [Document.toMarkup, Markup.element]
    rfl
  have hspecifications : d.toMarkup.element.child? "specifications" = some
      (Markup.block "specifications" [] (d.specifications.map Specification.toMarkup)).element := by
    unfold Element.child?
    rw [Document.toMarkup, Markup.element]
    rfl
  unfold Document.ofElement
  rw [hroot, if_neg (fun hne => hne rfl), hinfo, hspecifications]
  simp only [Info.foldl_children h.info, map_specifications h.specifications]

/-! ### Plain names -/

theorem allPlain_map {α : Type} {f : α → Markup} {l : List α} (h : ∀ a ∈ l, (f a).Plain) :
    Markup.AllPlain (l.map f) := by
  induction l with
  | nil => trivial
  | cons a l ih =>
    exact ⟨h a List.mem_cons_self, ih fun b hb => h b (List.mem_cons_of_mem _ hb)⟩

theorem areAttributes_of_keys {as : List (String × String)} (ks : List String)
    (hkeys : as.map (·.1) = ks) (h : ∀ k ∈ ks, IsName k) (hnodup : ks.Nodup) :
    AreAttributes as where
  isName := fun a ha => h a.1 (hkeys ▸ List.mem_map.2 ⟨a, ha, rfl⟩)
  nodup := hkeys ▸ hnodup

theorem plain_block {name : String} {ms : List Markup} (hname : IsName name)
    (h : Markup.AllPlain ms) : (Markup.block name [] ms).Plain :=
  ⟨hname, Xml.areAttributes_nil, h⟩

theorem plain_restriction (base : String) {cs : List (String × String)}
    (h : ∀ c ∈ cs, IsName c.1) : (restriction base cs).Plain := by
  refine ⟨by decide, areAttributes_of_keys ["base"] rfl (by decide) (by decide), ?_⟩
  apply allPlain_map
  intro c hc
  exact ⟨h c hc, areAttributes_of_keys ["value"] rfl (by decide) (by decide)⟩

/-- Every restriction is written with plain names. -/
theorem Value.plain_toMarkup (v : Value) : v.toMarkup.Plain := by
  cases v with
  | simple s =>
    show IsName "simpleValue"
    decide
  | pattern r =>
    apply plain_restriction
    intro c hc
    rw [List.mem_singleton.1 hc]
    show IsName "xs:pattern"
    decide
  | enumeration os =>
    apply plain_restriction
    intro c hc
    obtain ⟨o, -, rfl⟩ := List.mem_map.1 hc
    show IsName "xs:enumeration"
    decide
  | bounds b => exact plain_restriction _ fun _ hc => b.named_parts.isName_of_mem hc
  | length l => exact plain_restriction _ fun _ hc => l.named_parts.isName_of_mem hc

/-- Every condition is written with plain names. -/
theorem Condition.plain_toMarkup (c : Condition) : Markup.AllPlain c.toMarkup := by
  have hparts : Markup.AllPlain ((presentParts c.parts).map namedPart) := by
    apply allPlain_map
    intro p hp
    exact plain_block (c.named_parts.isName_of_mem hp) ⟨p.2.plain_toMarkup, trivial⟩
  rw [toMarkup_eq]
  split
  · exact ⟨plain_block (by decide) hparts, trivial⟩
  · exact hparts

theorem FacetKind.isName_name (k : FacetKind) : IsName k.name := by
  cases k <;> decide

/-- Every facet is written with plain names. -/
theorem Facet.plain_toMarkup (isRequirement : Bool) (f : Facet) :
    (f.toMarkup isRequirement).Plain := by
  have hattributes := (f.named_parts isRequirement).areAttributes
  rw [toMarkup, Markup.Plain, attributes_eq]
  exact ⟨f.kind.isName_name, hattributes, f.condition.plain_toMarkup⟩

/-- Every specification is written with plain names. -/
theorem Specification.plain_toMarkup (s : Specification) : s.toMarkup.Plain := by
  have happlicability := allPlain_map (l := s.applicability) (f := Facet.toMarkup false)
    fun f _ => f.plain_toMarkup false
  have hrequirements := allPlain_map (l := s.requirements) (f := Facet.toMarkup true)
    fun f _ => f.plain_toMarkup true
  have hattributes : AreAttributes (attributesOf s.parts) := s.named_parts.areAttributes
  rw [toMarkup, Markup.Plain, Markup.AllPlain, Markup.AllPlain, Markup.AllPlain]
  exact ⟨by decide, hattributes, plain_block (by decide) happlicability,
    plain_block (by decide) hrequirements, trivial⟩

/-- The information is written with plain names. -/
theorem Info.plain_toMarkup (i : Info) : i.toMarkup.Plain := by
  have hnames : ∀ n ∈ Info.names, IsName n := by decide
  apply plain_block (by decide)
  apply allPlain_map
  intro f hf
  exact hnames f.1 (Info.mem_names (i := i) (mem_of_mem_presentParts hf))

/-- **The writer uses plain names only**, whatever the document says. -/
theorem Document.plain_toMarkup (d : Document) : d.toMarkup.Plain := by
  have hattributes : AreAttributes [("xmlns", idsNamespace), ("xmlns:xs", schemaNamespace)] :=
    areAttributes_of_keys ["xmlns", "xmlns:xs"] rfl (by decide) (by decide)
  have hspecifications := allPlain_map (l := d.specifications) (f := Specification.toMarkup)
    fun s _ => s.plain_toMarkup
  rw [toMarkup, Markup.Plain, Markup.AllPlain, Markup.AllPlain, Markup.AllPlain]
  exact ⟨by decide, hattributes, d.info.plain_toMarkup, plain_block (by decide) hspecifications,
    trivial⟩

/-- **A canonical document is read back from its text.** -/
theorem ofXml_toXml (d : Document) (h : d.Canonical) : Document.ofXml d.toXml = .ok d := by
  unfold Document.ofXml Document.toXml
  rw [Xml.read_document d.plain_toMarkup]
  exact Document.ofElement_toMarkup h

/-- A document with every kind of facet and of restriction. -/
def sampleDocument : Document where
  info := { title := some "A & <b>", purpose := some "x" }
  specifications :=
    [{  name := " \"name\"\n"
        ifcVersion := ""
        description := some "it's > 1"
        applicability :=
          [⟨.entity (.enumeration ["WALL", ""]) (some (.simple "")), .required, none⟩,
            ⟨.partOf (.simple "SITE") (some .voidsOrFills), .required, some "x"⟩]
        requirements :=
          [⟨.property (.simple "P") (.pattern "a|b") (some (.bounds { minExclusive := some "1" }))
              (some "REAL") none, .optional, some "do & don't"⟩,
            ⟨.attribute (.simple "N") (some (.length { maxLength := some "7" })),
              .prohibited, none⟩,
            ⟨.classification (some (.simple "S")) none (some "?b=1&c=2"), .required, none⟩,
            ⟨.material none none, .optional, none⟩,
            ⟨.entity (.simple "DOOR") none, .required, none⟩] },
      { name := "empty", ifcVersion := "IFC4" }]

/-- A document with all kinds of facets and restrictions is canonical, and is read back. -/
theorem ofXml_toXml_sample : sampleDocument.Canonical ∧
    Document.ofXml sampleDocument.toXml = .ok sampleDocument := by
  have h : sampleDocument.Canonical := by decide +kernel
  exact ⟨h, ofXml_toXml sampleDocument h⟩

end BimAudit.Ids
