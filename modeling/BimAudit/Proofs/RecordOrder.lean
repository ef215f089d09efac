import Mathlib.Data.List.Induction
import BimAudit.Proofs.RecordStore

/-!
# The order of records does not matter

Records are resolved by looking others up in the finished store, so a record may refer forwards as
well as backwards. Two texts with the same records on lines of their own hold the same entities,
whatever the order of the lines, as long as the relationships stay in order among themselves.

* `Store.SameRecords`: two stores find the same records. All that is resolved in one of them is
  resolved in the same way in the other: `resolve_congr`, `entity?_congr`.
* `Links.relationships_foldl`, `Links.getElem?_propertySets_foldl`: links are made of the
  relationships in their order, and of the property sets in any order.
* `entities_perm_of_same_records`: **the order of the records changes nothing but the order of the
  entities.**
-/

namespace BimAudit.Ifc

open Step (Record Value)

/-! ### Resolving in stores with the same records -/

namespace Store

/-- The stores find the same record for every id. -/
def SameRecords (st st' : Store) : Prop := ∀ id, st.find? id = st'.find? id

variable {st st' : Store}

/-- The same records have the same members. -/
theorem member?_congr (h : st.SameRecords st') (id : Nat) : st.member? id = st'.member? id := by
  unfold member?
  rw [h id]

/-- The property sets are the same. -/
theorem propertySet_congr (h : st.SameRecords st') (r : Record) :
    st.propertySet r = st'.propertySet r := by
  have hmember : st.member? = st'.member? := funext (member?_congr h)
  unfold propertySet
  rw [hmember]

/-- A walk meets the same materials. The induction is on its depth. -/
theorem walk_congr (h : st.SameRecords st') (depth id : Nat) (w : Walk) :
    st.walk depth id w = st'.walk depth id w := by
  induction depth generalizing id w with
  | zero => rfl
  | succ depth ih =>
    have hchildren : (fun w child => st.walk depth child w)
        = fun w child => st'.walk depth child w := by
      funext w child
      exact ih child w
    unfold walk
    rw [h id, hchildren]

theorem materialNames_congr (h : st.SameRecords st') (id : Nat) :
    st.materialNames id = st'.materialNames id := by
  unfold materialNames
  rw [walk_congr h]

/-- A classification belongs to the same system. The induction is on the number of links. -/
theorem classificationSystem?_congr (h : st.SameRecords st') (depth id : Nat) :
    st.classificationSystem? depth id = st'.classificationSystem? depth id := by
  induction depth generalizing id with
  | zero => rfl
  | succ depth ih =>
    unfold classificationSystem?
    rw [h id, funext ih]

theorem classification?_congr (h : st.SameRecords st') (id : Nat) :
    st.classification? id = st'.classification? id := by
  have hsystem : st.classificationSystem? = st'.classificationSystem? := by
    funext depth id
    exact classificationSystem?_congr h depth id
  unfold classification?
  rw [h id, hsystem]

end Store

namespace Links

/-- The types of the records that say how objects are related. -/
def relationshipTypes : List String :=
  ["IFCRELDEFINESBYPROPERTIES", "IFCRELDEFINESBYTYPE", "IFCRELASSOCIATESMATERIAL",
    "IFCRELASSOCIATESCLASSIFICATION"] ++ parentRelations.map (·.type)

/-- The record says how objects are related. -/
def isRelationship (r : Record) : Bool := relationshipTypes.contains r.type

/-- The record is a property set or a quantity set. -/
def isPropertySet (r : Record) : Bool := r.type = "IFCPROPERTYSET" ∨ r.type = "IFCELEMENTQUANTITY"

/-- What the relationships say, without the property sets. -/
def relationships (l : Links) : Links := { l with propertySets := ∅ }

variable {st st' : Store} {l l' : Links}

/-- **Stores with the same records resolve in the same way.** -/
theorem resolve_congr (h : st.SameRecords st') (l : Links) (r : Record) :
    resolve st l r = resolve st' l r := by
  have hmaterials : st.materialNames = st'.materialNames := funext (Store.materialNames_congr h)
  have hclassification : st.classification? = st'.classification? :=
    funext (Store.classification?_congr h)
  unfold resolve
  rw [Store.propertySet_congr h, hmaterials, hclassification]

/-- A property set is no relationship. -/
theorem isRelationship_of_isPropertySet {r : Record} (h : isPropertySet r = true) :
    isRelationship r = false := by
  unfold isPropertySet at h
  unfold isRelationship
  rcases of_decide_eq_true h with h | h
  all_goals
    rw [h]
    decide

/-- A record that is no property set is resolved by its relationship, if it says one. -/
theorem resolve_eq_self {r : Record} (hs : isPropertySet r = false)
    (hr : isRelationship r = false) : resolve st l r = l := by
  have hset : ¬(r.type = "IFCPROPERTYSET" ∨ r.type = "IFCELEMENTQUANTITY") :=
    of_decide_eq_false hs
  have htype : r.type ∉ relationshipTypes := by
    intro hmem
    unfold isRelationship at hr
    rw [List.contains_iff_mem.2 hmem] at hr
    cases hr
  unfold relationshipTypes at htype
  simp only [List.cons_append, List.nil_append, List.mem_cons, not_or] at htype
  obtain ⟨hproperties, hobject, hmaterial, hclassification, hparent⟩ := htype
  have hnone : parentRelations.find? (·.type = r.type) = none := by
    rw [List.find?_eq_none]
    intro p hp heq
    exact hparent (List.mem_map.2 ⟨p, hp, of_decide_eq_true heq⟩)
  unfold resolve
  rw [if_neg hset, if_neg hproperties, if_neg hobject, if_neg hmaterial, if_neg hclassification,
    hnone]

/-- A property set changes no other table. -/
theorem resolve_of_isPropertySet {r : Record} (h : isPropertySet r = true) :
    resolve st l r = { l with propertySets := l.propertySets.insert r.id (st.propertySet r) } := by
  unfold resolve
  rw [if_pos (of_decide_eq_true h)]

/-- A relationship is resolved without a look at the property sets. -/
theorem resolve_of_isRelationship {r : Record} (h : isRelationship r = true) :
    resolve st l r = { resolve st l.relationships r with propertySets := l.propertySets } := by
  have hset : ¬(r.type = "IFCPROPERTYSET" ∨ r.type = "IFCELEMENTQUANTITY") := by
    intro hor
    rw [isRelationship_of_isPropertySet (decide_eq_true hor)] at h
    cases h
  unfold resolve relationships
  rw [if_neg hset, if_neg hset]
  split
  · split <;> rfl
  split
  · split <;> rfl
  split
  · split <;> rfl
  split
  · split <;> rfl
  split
  · rfl
  · split <;> rfl

/-- The tables of relationships depend on the relationship records only. -/
theorem relationships_resolve (st : Store) (l : Links) (r : Record) :
    (resolve st l r).relationships
      = if isRelationship r then resolve st l.relationships r else l.relationships := by
  cases hr : isRelationship r with
  | true =>
    have hl : resolve st l.relationships r = { resolve st l.relationships.relationships r with
        propertySets := l.relationships.propertySets } := resolve_of_isRelationship hr
    rw [resolve_of_isRelationship hr, if_pos rfl, hl]
    rfl
  | false =>
    rw [if_neg Bool.false_ne_true]
    cases hs : isPropertySet r with
    | true =>
      rw [resolve_of_isPropertySet hs]
      rfl
    | false => rw [resolve_eq_self hs hr]

/-- **What the relationships say depends on the relationships in their order alone.** -/
theorem relationships_foldl (st : Store) (rs : List Record) (l : Links) :
    (rs.foldl (resolve st) l).relationships
      = (rs.filter isRelationship).foldl (resolve st) l.relationships := by
  induction rs generalizing l with
  | nil => rfl
  | cons r rs ih =>
    rw [List.foldl_cons, ih, relationships_resolve, List.filter_cons]
    split
    · rw [List.foldl_cons]
    · rfl

/-- The table of property sets depends on the property sets only. -/
theorem propertySets_resolve (st : Store) (l : Links) (r : Record) :
    (resolve st l r).propertySets
      = if isPropertySet r then l.propertySets.insert r.id (st.propertySet r)
        else l.propertySets := by
  cases hs : isPropertySet r with
  | true =>
    rw [resolve_of_isPropertySet hs]
    rfl
  | false =>
    rw [if_neg Bool.false_ne_true]
    cases hr : isRelationship r with
    | true => rw [resolve_of_isRelationship hr]
    | false => rw [resolve_eq_self hs hr]

/-- **The set with an id is that of the last record with this id.** -/
theorem getElem?_propertySets_foldl (st : Store) (rs : List Record) (id : Nat) :
    (rs.foldl (resolve st) {}).propertySets[id]?
      = (lastWith (rs.filter isPropertySet) id).map st.propertySet := by
  induction rs using List.reverseRecOn with
  | nil => simp [lastWith]
  | append_singleton rs r ih =>
    rw [List.foldl_append, List.foldl_cons, List.foldl_nil, propertySets_resolve,
      List.filter_append]
    cases hs : isPropertySet r with
    | true =>
      rw [if_pos rfl, Std.HashMap.getElem?_insert, ih, List.filter_cons_of_pos hs,
        List.filter_nil, lastWith_concat]
      by_cases hid : r.id = id <;> simp [hid]
    | false =>
      rw [if_neg Bool.false_ne_true, ih, List.filter_cons_of_neg (by simp [hs]), List.filter_nil,
        List.append_nil]

/-- The links say the same: of the relationships, and of the property set with every id. -/
structure Same (l l' : Links) : Prop where
  relationships : l.relationships = l'.relationships
  propertySets : ∀ id : Nat, l.propertySets[id]? = l'.propertySets[id]?

theorem Same.fields (h : Same l l') :
    l.definedBy = l'.definedBy ∧ l.typedBy = l'.typedBy ∧ l.materials = l'.materials ∧
      l.classifications = l'.classifications ∧ l.parents = l'.parents := by
  have hfields := h.relationships
  unfold Links.relationships at hfields
  rw [Links.mk.injEq] at hfields
  exact hfields.2

/-- **Records in another order give the same links**, if the relationships stay in order. -/
theorem same_foldl {rs rs' : List Record} (h : st.SameRecords st') (hp : rs.Perm rs')
    (hd : (rs.map (·.id)).Nodup)
    (ho : rs.filter isRelationship = rs'.filter isRelationship) :
    Same (rs.foldl (resolve st) {}) (rs'.foldl (resolve st') {}) := by
  have hresolve : resolve st = resolve st' := by
    funext l r
    exact resolve_congr h l r
  refine ⟨?_, ?_⟩
  · rw [relationships_foldl, relationships_foldl, ho, hresolve]
  · intro id
    have hsets : ((rs.filter isPropertySet).map (·.id)).Nodup :=
      hd.sublist (List.filter_sublist.map _)
    rw [getElem?_propertySets_foldl, getElem?_propertySets_foldl,
      lastWith_perm (hp.filter _) hsets, funext (Store.propertySet_congr h)]

end Links

/-! ### Entities -/

section Entities

variable {st st' : Store} {l l' : Links}

theorem parent?_congr (h : st.SameRecords st') (link : String × Nat) :
    parent? st link = parent? st' link := by
  unfold parent?
  rw [h link.2]

theorem propertySets_congr (h : st.SameRecords st') (hl : l.Same l') (r : Record) :
    propertySets st l r = propertySets st' l' r := by
  have hfind : st.find? = st'.find? := funext h
  obtain ⟨hdefined, htyped, -⟩ := hl.fields
  have hsets : (l.propertySets[·]?) = (l'.propertySets[·]?) := funext hl.propertySets
  unfold propertySets propertySetIds
  rw [hfind, htyped, hdefined, hsets]

/-- **The entity of a record depends on the records that can be found and on the links.** -/
theorem entity?_congr (h : st.SameRecords st') (hl : l.Same l') (file : String) (r : Record) :
    entity? file st l r = entity? file st' l' r := by
  obtain ⟨-, -, hmaterials, hclassifications, hparents⟩ := hl.fields
  unfold entity?
  rw [propertySets_congr h hl, hmaterials, hclassifications, hparents, funext (parent?_congr h)]

theorem id_of_entity? {file : String} {r : Record} {e : Entity} (h : entity? file st l r = some e) :
    e.id = r.id := by
  unfold entity? at h
  split at h
  · split at h
    · cases h
    · split at h
      · cases h
      · cases h
        rfl
  · cases h

end Entities

/-! ### Records on lines of their own -/

namespace Scan

/-- The line begins like a record. -/
def isData (l : List Char) : Bool := Step.startsRecord (Text.trim l)

/-- A line that begins like a record also ends like one. -/
def isClosed (l : List Char) : Bool :=
  !isData l || endsWith ';' (Text.trim l) || endsWith ')' (Text.trim l)

/-- The record that stands on a line. -/
def record? (l : List Char) : Option Record :=
  if isData l then Record.read? (Text.trim l) else none

/-- The name of the schema behind a line outside of the records. -/
def schemaAfter (schema : String) (l : List Char) : String :=
  if schema = "" then (Step.schemaName? (Text.trim l)).getD "" else schema

variable {s : Scan} {l : List Char}

/-- A line gives its record to the store, or its name to the schema. -/
theorem line_eq (hs : s.pending = none) (hl : isClosed l = true) :
    s.line l = {
      pending := none
      schema := if isData l then s.schema else schemaAfter s.schema l
      store := (record? l).toList.foldl Store.push s.store } := by
  obtain ⟨pending, schema, store⟩ := s
  cases hs
  unfold line start record?
  simp only
  cases hd : isData l with
  | true =>
    have hend : (endsWith ';' (Text.trim l) || endsWith ')' (Text.trim l)) = true := by
      unfold isClosed at hl
      simpa [hd] using hl
    unfold isData at hd
    rw [if_pos hd, if_pos hend, push]
    cases Record.read? (Text.trim l) <;> rfl
  | false =>
    unfold isData at hd
    unfold schemaAfter
    rw [if_neg (by simp [hd])]
    by_cases hschema : schema = ""
    · rw [if_pos hschema]
      subst hschema
      cases Step.schemaName? (Text.trim l) <;> rfl
    · rw [if_neg hschema]
      simp [hschema]

/-- Lines give their records to the store in order. -/
theorem lines_eq {ls : List (List Char)} (hs : s.pending = none)
    (hl : ∀ l ∈ ls, isClosed l = true) :
    s.lines ls = {
      pending := none
      schema := (ls.filter (!isData ·)).foldl schemaAfter s.schema
      store := (ls.filterMap record?).foldl Store.push s.store } := by
  unfold lines
  induction ls generalizing s with
  | nil =>
    obtain ⟨pending, schema, store⟩ := s
    cases hs
    rfl
  | cons l ls ih =>
    have hline := line_eq hs (hl l List.mem_cons_self)
    have hpending : (s.line l).pending = none := by rw [hline]
    rw [List.foldl_cons, ih hpending fun m hm => hl m (List.mem_cons_of_mem _ hm), hline]
    cases hd : isData l with
    | true =>
      cases hr : record? l with
      | none => simp [hd, hr]
      | some r => simp [hd, hr]
    | false =>
      have hr : record? l = none := by simp [record?, hd]
      simp [hd, hr]

end Scan

/-- Every record of the text ends on the line on which it begins. -/
def OnSingleLines (text : List Char) : Prop := ∀ l ∈ Text.lines text, Scan.isClosed l = true

instance (text : List Char) : Decidable (OnSingleLines text) :=
  inferInstanceAs (Decidable (∀ l ∈ Text.lines text, Scan.isClosed l = true))

/-- The records of a text that has each of them on a line of its own. -/
def recordsOf (text : List Char) : List Record := (Text.lines text).filterMap Scan.record?

/-- The lines of a text outside of its records. -/
def otherLines (text : List Char) : List (List Char) := (Text.lines text).filter (!Scan.isData ·)

/-- The store of some records. -/
def Store.ofRecords (rs : List Record) : Store := rs.foldl Store.push {}

/-- The links between some records. -/
def Links.ofRecords (rs : List Record) : Links := rs.foldl (Links.resolve (.ofRecords rs)) {}

/-- **The model of a text with single-line records**, record by record. -/
theorem read_eq {text : List Char} (h : OnSingleLines text) (n : Nat) (file : String) :
    read n file text = {
      fileName := file
      schema := (otherLines text).foldl Scan.schemaAfter ""
      entities := (recordsOf text).filterMap
        (entity? file (.ofRecords (recordsOf text)) (.ofRecords (recordsOf text))) } := by
  have hscan : Scan.lines {} (Text.lines text) = {
      pending := none
      schema := (otherLines text).foldl Scan.schemaAfter ""
      store := .ofRecords (recordsOf text) } := Scan.lines_eq rfl h
  have hlist : (Store.ofRecords (recordsOf text)).list = recordsOf text :=
    Store.list_foldl_push _ _
  rw [read_of_scan n file hscan]
  simp only [hlist]
  rfl

/-- **The order of the records changes nothing but the order of the entities.** Let two texts have
the same records, each on a line of its own and with an id of its own, and let the relationships
stand in the same order. Then they hold the same entities: those with equal ids are equal in every
respect. In what comes apart from the records, the models differ only if the texts do. -/
theorem entities_perm_of_same_records (m n : Nat) (file : String) {text text' : List Char}
    (hlines : OnSingleLines text) (hlines' : OnSingleLines text')
    (hids : ((recordsOf text).map (·.id)).Nodup) (hids' : ((recordsOf text').map (·.id)).Nodup)
    (hsame : ∀ r, r ∈ recordsOf text ↔ r ∈ recordsOf text')
    (horder : (recordsOf text).filter Links.isRelationship
      = (recordsOf text').filter Links.isRelationship) :
    (read m file text).entities.Perm (read n file text').entities ∧
      (∀ e ∈ (read m file text).entities, ∀ e' ∈ (read n file text').entities,
        e.id = e'.id → e = e') ∧
      (read m file text).fileName = (read n file text').fileName ∧
      (otherLines text = otherLines text' →
        (read m file text).schema = (read n file text').schema) := by
  have hperm : (recordsOf text).Perm (recordsOf text') :=
    (List.perm_ext_iff_of_nodup hids.of_map hids'.of_map).2 hsame
  have hfind : (Store.ofRecords (recordsOf text)).SameRecords (.ofRecords (recordsOf text')) := by
    intro id
    have hst := (Store.indexed_foldl_push (recordsOf text) Store.indexed_empty).find id
    have hst' := (Store.indexed_foldl_push (recordsOf text') Store.indexed_empty).find id
    rw [Store.list_foldl_push] at hst hst'
    unfold Store.ofRecords
    rw [hst, hst']
    exact lastWith_perm hperm hids id
  have hlinks := Links.same_foldl hfind hperm hids horder
  have hentity : entity? file (.ofRecords (recordsOf text)) (.ofRecords (recordsOf text))
      = entity? file (.ofRecords (recordsOf text')) (.ofRecords (recordsOf text')) := by
    funext r
    exact entity?_congr hfind hlinks file r
  rw [read_eq hlines, read_eq hlines', hentity]
  refine ⟨hperm.filterMap _, ?_, rfl, ?_⟩
  · intro e he e' he' hid
    obtain ⟨r, hr, hre⟩ := List.mem_filterMap.1 he
    obtain ⟨r', hr', hre'⟩ := List.mem_filterMap.1 he'
    -- entities with one id come from one record
    have hrid : r.id = r'.id := by rw [← id_of_entity? hre, hid, id_of_entity? hre']
    have hrr : r = r' := List.inj_on_of_nodup_map hids hr ((hsame r').2 hr') hrid
    rw [hrr, hre'] at hre
    exact Option.some.inj hre.symm
  · intro hother
    simp only
    rw [hother]

/-- A wall whose property set and relationship come before what they refer to. -/
def forwardText : List Char :=
  ["FILE_SCHEMA(('IFC4'));", "#4=IFCRELDEFINESBYPROPERTIES($,$,$,$,(#1),#3);",
    "#3=IFCPROPERTYSET($,$,'Set',$,(#2));", "#1=IFCWALL('G');",
    "#2=IFCPROPERTYSINGLEVALUE('P',$,'V');"].flatMap (·.toList ++ ['\n'])

/-- The same records the other way round. -/
def backwardText : List Char :=
  ["#2=IFCPROPERTYSINGLEVALUE('P',$,'V');", "#1=IFCWALL('G');",
    "#3=IFCPROPERTYSET($,$,'Set',$,(#2));", "#4=IFCRELDEFINESBYPROPERTIES($,$,$,$,(#1),#3);",
    "FILE_SCHEMA(('IFC4'));"].flatMap (·.toList ++ ['\n'])

/-- The references of the first text go forwards, those of the second one backwards. -/
theorem entities_perm_of_same_records_backward :
    OnSingleLines forwardText ∧ OnSingleLines backwardText ∧
      (recordsOf forwardText).map (·.id) = [4, 3, 1, 2] ∧
      recordsOf backwardText = (recordsOf forwardText).reverse ∧
      (recordsOf forwardText).filter Links.isRelationship
        = (recordsOf backwardText).filter Links.isRelationship ∧
      otherLines forwardText = otherLines backwardText ∧
      (read 1 "a.ifc" forwardText).entities.Perm (read 7 "a.ifc" backwardText).entities ∧
      (read 1 "a.ifc" forwardText).schema = (read 7 "a.ifc" backwardText).schema := by
  have h : OnSingleLines forwardText ∧ OnSingleLines backwardText ∧
      (recordsOf forwardText).map (·.id) = [4, 3, 1, 2] ∧
      recordsOf backwardText = (recordsOf forwardText).reverse ∧
      (recordsOf forwardText).filter Links.isRelationship
        = (recordsOf backwardText).filter Links.isRelationship ∧
      otherLines forwardText = otherLines backwardText := by decide +kernel
  obtain ⟨hlines, hlines', hids, hreverse, horder, hother⟩ := h
  have hdistinct : ((recordsOf forwardText).map (·.id)).Nodup := by
    rw [hids]
    decide
  have hdistinct' : ((recordsOf backwardText).map (·.id)).Nodup := by
    rw [hreverse, List.map_reverse]
    exact List.nodup_reverse.2 hdistinct
  have hsame : ∀ r, r ∈ recordsOf forwardText ↔ r ∈ recordsOf backwardText := by
    intro r
    rw [hreverse, List.mem_reverse]
  obtain ⟨hperm, -, -, hschema⟩ := entities_perm_of_same_records 1 7 "a.ifc" hlines hlines'
    hdistinct hdistinct' hsame horder
  exact ⟨hlines, hlines', hids, hreverse, horder, hother, hperm, hschema hother⟩

end BimAudit.Ifc
