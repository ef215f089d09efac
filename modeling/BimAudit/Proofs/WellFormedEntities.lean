import BimAudit.Proofs.Correspondences
import BimAudit.Proofs.EntityNames
import BimAudit.Proofs.MaterialNames
import BimAudit.Proofs.MixedEncodings
import BimAudit.Proofs.PropertyValues

/-!
# Entities are well formed

Whatever a text says, also where records are malformed, ids are given twice or several relationships
speak of one object, what is read from it are entities that the rest of the program may rely on:
they have a GUID, their names agree with their attributes, their types are those of objects, and
nothing in them is empty that must not be or is there twice that must not be. They come in the order
of the records that they are made of.

* `Record.isTypeName_of_read?`: the type of every record is a type name.
* `Links.distinct_materials`: the materials that relationships give to objects have distinct names.
* `definedValue?_empty`: no property is without a name.
* `Entity.WellFormed`: what holds of every entity. `wellFormed_read`: **every entity of a text is
  well formed, and each is made of a record of its own, in their order.**
-/

namespace BimAudit.Text

/-- A text occurs in another one if it is a part of it. -/
theorem occurs_iff_infix {p s : List Char} : occurs p s = true ↔ p <:+: s := by
  induction s with
  | nil => rw [occurs, List.isEmpty_iff, List.infix_nil]
  | cons c s ih =>
    rw [occurs, Bool.or_eq_true, List.isPrefixOf_iff_prefix, ih, List.infix_cons_iff]

/-- Letters of words stay such in upper case. -/
theorem isWordChar_toUpper {c : Char} (h : isWordChar c = true) : isWordChar c.toUpper = true := by
  rw [isWordChar_iff] at h ⊢
  rw [toNat_toUpper]
  split <;> omega

theorem toUpper_toUpper (c : Char) : c.toUpper.toUpper = c.toUpper := by
  rw [← Char.toNat_inj, toNat_toUpper]
  split
  · next hlower =>
    rw [toNat_toUpper] at hlower
    split at hlower <;> omega
  · rfl

end BimAudit.Text

namespace BimAudit.Step

/-! ### Types of records -/

/-- The type of a record that has been read consists of upper-case letters, digits and
underscores. -/
theorem Record.isTypeName_of_read? {line : List Char} {r : Record} (h : read? line = some r) :
    Value.IsTypeName r.type.toList := by
  unfold read? at h
  split at h
  · simp only [Option.bind_eq_bind, Option.bind_eq_some_iff] at h
    obtain ⟨_, -, _, -, ⟨type, body⟩, -, h⟩ := h
    split at h
    · next hword =>
      obtain ⟨parameters, -, rfl⟩ := Option.map_eq_some_iff.1 h
      rw [upperString, String.toList_ofList]
      refine ⟨by simpa using hword.1, ?_⟩
      intro c hc
      obtain ⟨d, hd, rfl⟩ := List.mem_map.1 hc
      exact ⟨Text.isWordChar_toUpper (List.all_eq_true.1 hword.2 d hd),
        Text.toUpper_toUpper d⟩
    · cases h
  · cases h

end BimAudit.Step

namespace BimAudit.Ifc

open Step (Record Value)

/-! ### Names of materials -/

/-- The names are distinct, and none is empty. -/
def Distinct (names : List String) : Prop := names.Nodup ∧ "" ∉ names

theorem distinct_nil : Distinct [] := ⟨List.nodup_nil, List.not_mem_nil⟩

/-- The names of materials are noted once each. -/
theorem Store.distinct_materialNames (st : Store) (id : Nat) : Distinct (st.materialNames id) := by
  have hnoted : st.Noted (st.walk (maxLinkDepth + 1) id {}) := noted_walk st _ id
  refine ⟨hnoted.nodup, ?_⟩
  intro hmem
  obtain ⟨b, -, r, -, hbears⟩ := (hnoted.mem_names "").1 hmem
  exact hbears.2.2 rfl

namespace Links

/-- Adding names to distinct ones keeps them distinct. -/
theorem distinct_addNames {old new : List String} (hold : Distinct old) (hnew : "" ∉ new) :
    Distinct (addNames old new) := by
  unfold addNames
  induction new generalizing old with
  | nil => exact hold
  | cons name new ih =>
    rw [List.mem_cons, not_or] at hnew
    rw [List.foldl_cons]
    refine ih ?_ hnew.2
    split
    · exact hold
    · next hfresh =>
      refine ⟨hold.1.append (List.nodup_singleton name) (List.disjoint_singleton.2 hfresh), ?_⟩
      rw [List.mem_append, List.mem_singleton, not_or]
      exact ⟨hold.2, hnew.1⟩

/-- All objects have distinct names in the table. -/
def AllDistinct (m : Std.HashMap Nat (List String)) : Prop := ∀ id, Distinct (m.getD id [])

/-- Names are added to what there is, once each. -/
theorem allDistinct_foldl {names : List String} (hnames : "" ∉ names) (ids : List Nat)
    {m : Std.HashMap Nat (List String)} (hm : AllDistinct m) : AllDistinct
      (ids.foldl (fun m id => m.insert id (addNames (m.getD id []) names)) m) := by
  refine List.foldlRecOn (motive := AllDistinct) ids _ hm ?_
  intro m hm i _ id
  rw [Std.HashMap.getD_insert]
  split
  · exact distinct_addNames (hm i) hnames
  · exact hm id

/-- **The materials of an object have distinct names**, however many relationships give it some. -/
theorem distinct_materials (rs : List Record) : AllDistinct (ofRecords rs).materials := by
  refine List.foldlRecOn (motive := fun l : Links => AllDistinct l.materials) rs _ ?_ ?_
  · intro id
    have hempty : ({} : Links).materials.getD id [] = [] := Std.HashMap.getD_empty
    rw [hempty]
    exact distinct_nil
  · intro l hl r _
    rw [resolve_eq]
    cases relating "IFCRELASSOCIATESMATERIAL" r with
    | none => exact hl
    | some material => exact allDistinct_foldl (Store.distinct_materialNames _ material).2 _ hl

end Links

/-! ### Names of properties -/

/-- **No set defines a property without a name.** -/
theorem definedValue?_empty (rs : List Record) (s : Record) : definedValue? rs s "" = none := by
  unfold definedValue?
  rw [Option.map_eq_none_iff, List.find?_eq_none]
  intro member hmember
  obtain ⟨id, -, hmember⟩ := List.mem_filterMap.1 (List.mem_reverse.1 hmember)
  obtain ⟨r, -, hmember⟩ := Option.bind_eq_some_iff.1 hmember
  unfold namedValue? at hmember
  simp only [Option.bind_eq_bind, Option.bind_eq_some_iff] at hmember
  obtain ⟨name, -, i, -, hmember⟩ := hmember
  split at hmember
  · cases hmember
  · next hname =>
    cases hmember
    simpa using hname

/-- There is no property without a name. -/
theorem propertyIn_empty (rs : List Record) (r : Record) (set : String) :
    propertyIn (propertySets (.ofRecords rs) (.ofRecords rs) r) set "" = none := by
  rw [propertySets_ofRecords, propertyIn_foldl_attach, List.getLast?_eq_none_iff,
    List.filterMap_eq_nil_iff]
  intro s hs
  obtain ⟨q, -, rfl⟩ := List.mem_map.1 hs
  rw [value?_propertySet, definedValue?_empty, ite_self]

/-! ### Entities -/

/-- The names of the attributes that an entity may have. -/
def attributeNames : List String := ["GlobalId", "Name", "Description", "PredefinedType"]

/-- What holds of every entity that is read from a file. -/
structure Entity.WellFormed (file : String) (e : Entity) : Prop where
  guid_ne : e.guid ≠ ""
  globalId : e.attributes.find? "GlobalId" = some e.guid
  /-- The entity shows the name that it has as an attribute, or else a dash. -/
  name_eq : e.name = (e.attributes.find? "Name").getD "-"
  attributes : ∀ k ∈ e.attributes.keys, k ∈ attributeNames
  /-- A predefined type is no truth value. -/
  predefinedType : ∀ t ∈ e.attributes.find? "PredefinedType", t ∉ ["T", "F", "U"]
  /-- The type is in upper case. -/
  isTypeName : Value.IsTypeName e.type.toList
  startsWith : "IFC".toList <+: e.type.toList
  /-- The type is no relationship, property definition or quantity. -/
  isObject : ∀ part ∈ ["REL", "PROPERTY", "QUANTITY"], ¬ part.toList <:+: e.type.toList
  materials : Distinct e.materials
  /-- No property is without a name. -/
  properties : ∀ set ∈ e.propertySets.entries, "" ∉ set.2.keys
  sourceFile : e.sourceFile = file

/-- The type of an object begins with `IFC` and has none of three words in it. -/
theorem isObjectType_iff {type : String} : isObjectType type = true ↔
    "IFC".toList <+: type.toList ∧
      ∀ part ∈ ["REL", "PROPERTY", "QUANTITY"], ¬ part.toList <:+: type.toList := by
  unfold isObjectType Text.startsWith Text.contains
  simp only [Bool.and_eq_true, Bool.not_eq_true', List.isPrefixOf_iff_prefix, List.forall_mem_cons,
    ← Text.occurs_iff_infix, Bool.not_eq_true, and_assoc]
  simp

/-- A predefined type is no truth value. -/
theorem not_truthValue_of_predefinedType? {vs : List Value} {t : String}
    (h : predefinedType? vs = some t) : t ∉ ["T", "F", "U"] := by
  unfold predefinedType? at h
  split at h
  · split at h
    · cases h
    · next hvalue =>
      cases h
      simpa using hvalue
  · cases h

variable {st : Store} {l : Links} {file : String} {r : Record} {e : Entity}

/-- **The entity of a record is well formed** if the type of the record is a type name and the links
give it materials with distinct names and properties with names. -/
theorem wellFormed_of_entity? (h : entity? file st l r = some e)
    (htype : Value.IsTypeName r.type.toList) (hmaterials : Distinct (l.materials.getD r.id []))
    (hproperties : ∀ set, propertyIn (propertySets st l r) set "" = none) :
    e.WellFormed file := by
  obtain ⟨hobject, hguid, rest, -, heq⟩ := eq_of_entity? h
  obtain ⟨hstart, hparts⟩ := isObjectType_iff.1 hobject
  have htypeEq : e.type = r.type := congrArg Entity.type heq
  have hmaterialsEq : e.materials = l.materials.getD r.id [] := congrArg Entity.materials heq
  have hname : e.name = rest.head?.getD "-" := congrArg Entity.name heq
  have hattributes := congrArg Entity.attributes heq
  have hempty : ∀ k, (∅ : Dictionary String).find? k = none := fun _ => rfl
  have hkeys : ∀ k ∈ e.attributes.keys, k ∈ attributeNames := by
    intro k hk
    by_contra hother
    simp only [attributeNames, List.mem_cons, List.not_mem_nil, or_false, not_or] at hother
    have hnone : e.attributes.find? k = none := by simp [hattributes, hother, hempty]
    exact Dictionary.find?_eq_none_iff.1 hnone hk
  have hpredefined : e.attributes.find? "PredefinedType" = predefinedType? r.values := by
    simp [hattributes, hempty]
  have hnames : ∀ set ∈ e.propertySets.entries, "" ∉ set.2.keys := by
    rintro ⟨set, properties⟩ hmem
    rw [(links_of_entity? h).1] at hmem
    have hnone := hproperties set
    unfold propertyIn at hnone
    rw [Dictionary.mem_entries_iff.1 hmem, Option.bind_some] at hnone
    exact Dictionary.find?_eq_none_iff.1 hnone
  exact {
    guid_ne := hguid
    globalId := by simp [hattributes]
    name_eq := by simp [hattributes, hname, hempty]
    attributes := hkeys
    predefinedType := fun t ht => not_truthValue_of_predefinedType? (hpredefined.symm.trans ht)
    isTypeName := by rwa [htypeEq]
    startsWith := by rwa [htypeEq]
    isObject := by rwa [htypeEq]
    materials := by rwa [hmaterialsEq]
    properties := hnames
    sourceFile := congrArg Entity.sourceFile heq }

/-- The entity is made of the record: it has its id and type, and its first string as GUID. -/
def Entity.MadeOf (e : Entity) (r : Record) : Prop :=
  e.id = r.id ∧ e.type = r.type ∧ r.strings.head? = some e.guid

/-- **An entity is made of its record**, with what the links of the model give it. -/
theorem madeOf_of_entity? (h : entity? file st l r = some e) : e.MadeOf r := by
  obtain ⟨-, -, rest, hstrings, heq⟩ := eq_of_entity? h
  exact ⟨congrArg Entity.id heq, congrArg Entity.type heq, by rw [hstrings, List.head?_cons]⟩

/-- **Entities are well formed**, whatever the text is and in whatever chunks it is read. They stand
in the order of the records that they are made of, and no record makes two. -/
theorem wellFormed_read (n : Nat) (file : String) (text : List Char) :
    (∀ e ∈ (read n file text).entities, e.WellFormed file) ∧
      List.SublistForall₂ Entity.MadeOf (read n file text).entities (recordsIn text) := by
  constructor
  · intro e he
    obtain ⟨r, hr, he⟩ := mem_entities_read.1 he
    obtain ⟨line, hline⟩ := exists_read?_of_mem_recordsIn hr
    exact wellFormed_of_entity? he (Record.isTypeName_of_read? hline)
      (Links.distinct_materials _ r.id) (propertyIn_empty _ r)
  · have hmade : ∀ r e, entity? file (.ofRecords (recordsIn text)) (.ofRecords (recordsIn text)) r
        = some e → e.MadeOf r := fun r e he => madeOf_of_entity? he
    rw [entities_read]
    exact sublistForall₂_filterMap rfl fun i r e hr he => ⟨r, hr, hmade r e he⟩

/-- The wall with a set by its type and one of its own is there, and it is well formed. -/
theorem wellFormed_read_typedWall :
    (∃ e ∈ (read 1 "a.ifc" typedWallText).entities, e.id = 1 ∧ e.WellFormed "a.ifc") ∧
      List.SublistForall₂ Entity.MadeOf (read 1 "a.ifc" typedWallText).entities
        typedWallRecords := by
  have hwall : ⟨1, "IFCWALL", "'W1'".toList⟩ ∈ recordsIn typedWallText := by
    rw [recordsIn_typedWall]
    exact List.mem_cons_self
  have hguid : (⟨1, "IFCWALL", "'W1'".toList⟩ : Record).strings.head? = some "W1" := by
    decide +kernel
  obtain ⟨e, hmem, hid⟩ :=
    exists_mem_entities_read hwall (by decide +kernel) hguid (by decide) 1 "a.ifc"
  obtain ⟨hwellFormed, hrecords⟩ := wellFormed_read 1 "a.ifc" typedWallText
  rw [recordsIn_typedWall] at hrecords
  exact ⟨⟨e, hmem, hid, hwellFormed e hmem⟩, hrecords⟩

end BimAudit.Ifc
