import BimAudit.Proofs.Dictionaries
import BimAudit.Proofs.RelatedObjects

/-!
# Values of properties

An object gets property sets from its type, from itself if it is a type object, and from the
relationships that attach sets to it. Sets of one name are merged, and a later set overrides an
earlier one property by property. So the value of a property is that in the last set of the name
that defines it, and sets attached to the object itself come last.

* `propertyIn_foldl_attach`, `mem_keys_foldl_attach`: what is merged from a list of sets.
* `listedSets`: the sets of an object, in the order in which they override each other.
* `property?_of_read`: **the values of an entity are those in the last set that defines them.**
-/

namespace BimAudit.Ifc

open Step (Record)

/-! ### Merging sets -/

/-- The value of a property in merged sets. -/
def propertyIn (d : Dictionary (Dictionary String)) (set name : String) : Option String :=
  (d.find? set).bind (·.find? name)

/-- The value that a set gives to a property of the sets with a name. -/
def PropertySet.value? (s : PropertySet) (set name : String) : Option String :=
  if s.name = set then s.properties.find? name else none

/-- A set that is attached later comes first. -/
theorem propertyIn_attach (d : Dictionary (Dictionary String)) (s : PropertySet)
    (set name : String) :
    propertyIn (attach d s) set name = (s.value? set name).or (propertyIn d set name) := by
  unfold propertyIn attach PropertySet.value?
  rw [Dictionary.find?_insert]
  by_cases h : s.name = set
  · rw [if_pos h.symm, if_pos h, Option.bind_some, Dictionary.find?_merge, h]
    cases d.find? set <;> rfl
  · rw [if_neg (Ne.symm h), if_neg h, Option.none_or]

/-- **The last set that defines a property counts.** -/
theorem propertyIn_foldl_attach (sets : List PropertySet) (set name : String) :
    propertyIn (sets.foldl attach ∅) set name
      = (sets.filterMap (·.value? set name)).getLast? := by
  induction sets using List.reverseRecOn with
  | nil => rfl
  | append_singleton sets s ih =>
    rw [List.foldl_concat, propertyIn_attach, ih, List.filterMap_append, List.getLast?_append]
    cases h : s.value? set name <;> simp [h]

/-- A set that is attached gives a set of its name, also if there is one already. -/
theorem mem_keys_attach {d : Dictionary (Dictionary String)} {s : PropertySet} {set : String} :
    set ∈ (attach d s).keys ↔ set = s.name ∨ set ∈ d.keys := Dictionary.mem_keys_put

/-- A name is there if a set bears it. -/
theorem mem_keys_foldl_attach {sets : List PropertySet} {set : String} :
    set ∈ (sets.foldl attach ∅).keys ↔ ∃ s ∈ sets, s.name = set := by
  induction sets using List.reverseRecOn with
  | nil => exact iff_of_false List.not_mem_nil fun ⟨_, hs, _⟩ => List.not_mem_nil hs
  | append_singleton sets s ih =>
    rw [List.foldl_concat, mem_keys_attach, ih]
    constructor
    · rintro (rfl | ⟨s', hs', rfl⟩)
      · exact ⟨s, List.mem_append_right _ List.mem_cons_self, rfl⟩
      · exact ⟨s', List.mem_append_left _ hs', rfl⟩
    · rintro ⟨s', hs', rfl⟩
      obtain hs' | hs' := List.mem_append.1 hs'
      · exact .inr ⟨s', hs', rfl⟩
      · rw [List.mem_singleton.1 hs']
        exact .inl rfl

/-! ### The sets of an object -/

/-- The name of a property set or quantity set. -/
def setName (s : Record) : String := (textAt s.values 2).getD ""

/-- The name and value of a property or quantity. One without a name has neither. -/
def namedValue? (r : Record) : Option (String × String) := do
  let name ← textAt r.values 0
  let i ← Store.valuePosition? r.type
  if name = "" then none else some (name, ((r.values[i]?).map Step.Value.propertyText).getD "")

/-- The members of a set, each with its name and value. -/
def setMembers (rs : List Record) (s : Record) : List (String × String) :=
  (referencesAt s.values (if s.type = "IFCELEMENTQUANTITY" then 5 else 4)).filterMap fun id =>
    (lastWith rs id).bind namedValue?

/-- The value that a set gives to a property: that of the last member with the name. -/
def definedValue? (rs : List Record) (s : Record) (name : String) : Option String :=
  ((setMembers rs s).reverse.find? (·.1 = name)).map (·.2)

/-- The property sets and quantity sets with the given ids. -/
def setsWith (rs : List Record) (ids : List Nat) : List Record :=
  ids.filterMap (lastWith (rs.filter Links.isPropertySet))

/-- The type that was last assigned to an object. -/
def assignedType? (rs : List Record) (id : Nat) : Option Record :=
  ((given related (relating "IFCRELDEFINESBYTYPE") rs id).getLast?).bind (lastWith rs)

/-- The sets that an object has as one of its type, or as a type itself. -/
def typeSets (rs : List Record) (r : Record) : List Record :=
  setsWith rs (((assignedType? rs r.id).map ownPropertySets).getD []
    ++ if isTypeObject r.type then ownPropertySets r else [])

/-- The sets that are attached to an object itself. -/
def attachedSets (rs : List Record) (id : Nat) : List Record :=
  setsWith rs (given related (relating "IFCRELDEFINESBYPROPERTIES") rs id)

/-- All sets of an object, in the order in which they override each other. -/
def listedSets (rs : List Record) (r : Record) : List Record :=
  typeSets rs r ++ attachedSets rs r.id

/-- The value of a property in the last of some sets that has the name and defines it. -/
def lastValue? (rs sets : List Record) (set name : String) : Option String :=
  (sets.filterMap fun s => if setName s = set then definedValue? rs s name else none).getLast?

/-- A member of a set is found by the last record with its identifier. -/
theorem member?_ofRecords (rs : List Record) (id : Nat) :
    (Store.ofRecords rs).member? id = (lastWith rs id).bind namedValue? := by
  unfold Store.member?
  rw [Store.find?_ofRecords]
  rfl

/-- A property set has the values of its members. -/
theorem value?_propertySet (rs : List Record) (s : Record) (set name : String) :
    ((Store.ofRecords rs).propertySet s).value? set name
      = if setName s = set then definedValue? rs s name else none := by
  unfold PropertySet.value? Store.propertySet definedValue? setMembers
  rw [funext (member?_ofRecords rs), Dictionary.find?_ofList]
  rfl

theorem propertySets_ofRecords (rs : List Record) (r : Record) :
    propertySets (.ofRecords rs) (.ofRecords rs) r
      = ((listedSets rs r).map (Store.ofRecords rs).propertySet).foldl attach ∅ := by
  have hsets : ((Links.ofRecords rs).propertySets[·]?) = fun id =>
      (lastWith (rs.filter Links.isPropertySet) id).map (Store.ofRecords rs).propertySet :=
    funext (Links.propertySets_ofRecords rs)
  have hids : propertySetIds (.ofRecords rs) (.ofRecords rs) r
      = ((assignedType? rs r.id).map ownPropertySets).getD []
        ++ (if isTypeObject r.type then ownPropertySets r else [])
        ++ given related (relating "IFCRELDEFINESBYPROPERTIES") rs r.id := by
    unfold propertySetIds assignedType?
    rw [Links.typedBy_ofRecords, Links.definedBy_ofRecords, funext (Store.find?_ofRecords rs)]
  unfold propertySets listedSets typeSets attachedSets setsWith
  rw [hids, hsets, ← List.filterMap_append, List.map_filterMap]

/-- Of two lists of sets the later one comes first. -/
theorem lastValue?_append (rs sets sets' : List Record) (set name : String) :
    lastValue? rs (sets ++ sets') set name
      = (lastValue? rs sets' set name).or (lastValue? rs sets set name) := by
  unfold lastValue?
  rw [List.filterMap_append, List.getLast?_append]

/-- **The values of the properties of an entity.** Each is the one from the last set, among those of
the type, of the object as a type and of the relationships in this order, that has the name and
defines the property; there is no value if no set does. The name of a set is there exactly if a set
bears it. So a value from a set that is attached to the object itself overrides the type's value of
this one property. -/
theorem property?_of_read {n : Nat} {file : String} {text : List Char} {e : Entity}
    (h : e ∈ (read n file text).entities) : ∃ r ∈ recordsIn text,
      entity? file (.ofRecords (recordsIn text)) (.ofRecords (recordsIn text)) r = some e ∧
      (∀ set name, e.property? set name
        = lastValue? (recordsIn text) (listedSets (recordsIn text) r) set name) ∧
      (∀ set, set ∈ e.propertySets.keys
        ↔ ∃ s ∈ listedSets (recordsIn text) r, setName s = set) ∧
      ∀ set name, e.property? set name
        = (lastValue? (recordsIn text) (attachedSets (recordsIn text) r.id) set name).or
            (lastValue? (recordsIn text) (typeSets (recordsIn text) r) set name) := by
  obtain ⟨r, hr, he⟩ := mem_entities_read.1 h
  obtain ⟨hsets, -⟩ := links_of_entity? he
  rw [propertySets_ofRecords] at hsets
  have hvalue : ∀ set name, e.property? set name
      = lastValue? (recordsIn text) (listedSets (recordsIn text) r) set name := by
    intro set name
    have hproperty : e.property? set name = propertyIn e.propertySets set name := rfl
    rw [hproperty, hsets, propertyIn_foldl_attach, List.filterMap_map]
    unfold lastValue?
    congr 2
    funext s
    exact value?_propertySet _ s set name
  refine ⟨r, hr, he, hvalue, ?_, ?_⟩
  · intro set
    rw [hsets, mem_keys_foldl_attach]
    simp only [List.mem_map, exists_exists_and_eq_and]
    rfl
  · intro set name
    rw [hvalue]
    exact lastValue?_append _ _ _ set name

/-- A wall with a set of its own and another one of the same name by its type. -/
def typedWallText : List Char :=
  ["#1=IFCWALL('W1');", "#2=IFCWALLTYPE('T1',$,$,$,$,(#3));",
    "#3=IFCPROPERTYSET('P1',$,'Set',$,(#4,#5));", "#4=IFCPROPERTYSINGLEVALUE('Rating',$,'60');",
    "#5=IFCPROPERTYSINGLEVALUE('Load',$,.T.);", "#6=IFCRELDEFINESBYTYPE($,$,$,$,(#1),#2);",
    "#7=IFCPROPERTYSET('P2',$,'Set',$,(#8));", "#8=IFCPROPERTYSINGLEVALUE('Rating',$,'90');",
    "#9=IFCRELDEFINESBYPROPERTIES($,$,$,$,(#1),#7);"].flatMap (·.toList ++ ['\n'])

/-- The records of the text. -/
def typedWallRecords : List Record :=
  [⟨1, "IFCWALL", "'W1'".toList⟩, ⟨2, "IFCWALLTYPE", "'T1',$,$,$,$,(#3)".toList⟩,
    ⟨3, "IFCPROPERTYSET", "'P1',$,'Set',$,(#4,#5)".toList⟩,
    ⟨4, "IFCPROPERTYSINGLEVALUE", "'Rating',$,'60'".toList⟩,
    ⟨5, "IFCPROPERTYSINGLEVALUE", "'Load',$,.T.".toList⟩,
    ⟨6, "IFCRELDEFINESBYTYPE", "$,$,$,$,(#1),#2".toList⟩,
    ⟨7, "IFCPROPERTYSET", "'P2',$,'Set',$,(#8)".toList⟩,
    ⟨8, "IFCPROPERTYSINGLEVALUE", "'Rating',$,'90'".toList⟩,
    ⟨9, "IFCRELDEFINESBYPROPERTIES", "$,$,$,$,(#1),#7".toList⟩]

theorem recordsIn_typedWall : recordsIn typedWallText = typedWallRecords := by decide +kernel

/-- The wall overrides one property of its type and takes over the other. -/
theorem property?_of_read_typedWall : ∃ e ∈ (read 1 "a.ifc" typedWallText).entities, e.id = 1 ∧
    e.property? "Set" "Rating" = some "90" ∧ e.property? "Set" "Load" = some "TRUE" ∧
    e.property? "Set" "Other" = none ∧ "Set" ∈ e.propertySets.keys ∧
    "Other" ∉ e.propertySets.keys := by
  have hwall : ⟨1, "IFCWALL", "'W1'".toList⟩ ∈ recordsIn typedWallText := by
    rw [recordsIn_typedWall]
    exact List.mem_cons_self
  have hguid : (⟨1, "IFCWALL", "'W1'".toList⟩ : Record).strings.head? = some "W1" := by
    decide +kernel
  obtain ⟨e, hmem, heid⟩ :=
    exists_mem_entities_read hwall (by decide +kernel) hguid (by decide) 1 "a.ifc"
  have hvalues : ∀ r ∈ typedWallRecords, r.id = 1 →
      ["Rating", "Load", "Other"].map (lastValue? typedWallRecords (listedSets typedWallRecords r)
          "Set") = [some "90", some "TRUE", none] ∧
        (listedSets typedWallRecords r).map setName = ["Set", "Set"] := by decide +kernel
  rw [← recordsIn_typedWall] at hvalues
  obtain ⟨r, hr, he, hvalue, hname, -⟩ := property?_of_read hmem
  obtain ⟨hthree, hnames⟩ := hvalues r hr ((id_of_entity? he).symm.trans heid)
  have hbears : ∀ set, set ∈ e.propertySets.keys ↔ set ∈ ["Set", "Set"] := by
    intro set
    rw [hname, ← hnames, List.mem_map]
  simp only [List.map_cons, List.map_nil, ← hvalue, List.cons.injEq, and_true] at hthree
  obtain ⟨hrating, hload, hother⟩ := hthree
  exact ⟨e, hmem, heid, hrating, hload, hother, (hbears _).2 (by decide),
    fun h => absurd ((hbears _).1 h) (by decide)⟩

end BimAudit.Ifc
