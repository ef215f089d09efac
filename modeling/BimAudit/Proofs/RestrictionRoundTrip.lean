import BimAudit.Ids.Reader
import BimAudit.Ids.Writer
import BimAudit.Proofs.XmlRoundTrip

/-!
# Restrictions are read back

The writer puts attributes and children in a list of optional parts with different names; the reader
looks each of them up by its name. A restriction without blanks around its texts is read back from
the element around it.

* `Named`: parts with different plain names.
* `find?_presentParts`: **a part is found by its name if it is there.**
* `Value.Canonical`: no text that the reader would trim, and something to read.
* `Value.ofElement?_named`: **a canonical value is read back.**
-/

namespace BimAudit.Ids

open Xml (Element Markup IsName AreAttributes readAttributes)
open Xml.Markup (readName readText)

/-! ### Trimmed texts -/

/-- The text has no blanks at its ends. -/
def Trimmed (s : String) : Prop := Text.strip s = s

/-- The text has no blanks at its ends, and is not empty. -/
def Filled (s : String) : Prop := Trimmed s ∧ s ≠ ""

instance (s : String) : Decidable (Trimmed s) := inferInstanceAs (Decidable (_ = _))

instance (s : String) : Decidable (Filled s) := inferInstanceAs (Decidable (_ ∧ _))

/-- Every text in the restriction is trimmed, and there is at least one option or bound. -/
def Value.Canonical : Value → Prop
  | simple s => Trimmed s
  | pattern r => Trimmed r
  | enumeration os => os ≠ [] ∧ ∀ o ∈ os, Trimmed o
  | bounds b => b ≠ {} ∧
    ∀ o ∈ [b.minInclusive, b.minExclusive, b.maxInclusive, b.maxExclusive], ∀ s ∈ o, Trimmed s
  | length l => l ≠ {} ∧ ∀ o ∈ [l.length, l.minLength, l.maxLength], ∀ s ∈ o, Trimmed s

instance : (v : Value) → Decidable v.Canonical
  | .simple s => inferInstanceAs (Decidable (Trimmed s))
  | .pattern r => inferInstanceAs (Decidable (Trimmed r))
  | .enumeration os => inferInstanceAs (Decidable (os ≠ [] ∧ ∀ o ∈ os, Trimmed o))
  | .bounds b => inferInstanceAs (Decidable (b ≠ {} ∧
      ∀ o ∈ [b.minInclusive, b.minExclusive, b.maxInclusive, b.maxExclusive],
        ∀ s ∈ o, Trimmed s))
  | .length l => inferInstanceAs (Decidable (l ≠ {} ∧
      ∀ o ∈ [l.length, l.minLength, l.maxLength], ∀ s ∈ o, Trimmed s))

/-- A trimmed text is read as it stands. -/
theorem readText_of_trimmed {s : String} (h : Trimmed s) : readText s = s := by
  have htrim : Text.trim s.toList = s.toList := by
    have htoList := congrArg String.toList h
    rwa [Text.strip, String.toList_ofList] at htoList
  have hdrop := Text.dropEnds_isSpace_of_trimmed htrim
  unfold readText
  rw [← Text.dropEnds, hdrop, String.ofList_toList]

/-- A text that is not blank is there after trimming. -/
theorem filter_strip {o : Option String} (h : ∀ s ∈ o, Filled s) :
    (o.map Text.strip).filter (!·.isEmpty) = o := by
  cases o with
  | none => rfl
  | some s =>
    obtain ⟨htrim, hne⟩ := h s rfl
    have hempty : s.isEmpty = false := by
      rw [← Bool.not_eq_true, String.isEmpty_iff]
      exact hne
    rw [Option.map_some, htrim, Option.filter_some, hempty]
    rfl

/-! ### Parts with names -/

section Parts

variable {α β : Type}

/-- The parts that are there. -/
def presentParts (as : List (String × Option α)) : List (String × α) :=
  as.filterMap fun a => a.2.map (a.1, ·)

theorem presentParts_cons_some (k : String) (v : α) (as : List (String × Option α)) :
    presentParts ((k, some v) :: as) = (k, v) :: presentParts as := rfl

theorem attributesOf_eq_presentParts (as : List (String × Option String)) :
    attributesOf as = presentParts as := rfl

/-- The parts have different plain names: `ks` as they are written, `ns` as they are read. -/
structure Named (as : List (String × Option α)) (ks ns : List String) : Prop where
  keys : as.map (·.1) = ks
  isName : ∀ k ∈ ks, IsName k
  nodup : ks.Nodup
  read : ks.map readName = ns
  nodup_read : ns.Nodup

variable {as : List (String × Option α)} {ks ns : List String}

/-- What is present is one of the parts. -/
theorem mem_of_mem_presentParts {p : String × α} (h : p ∈ presentParts as) :
    (p.1, some p.2) ∈ as := by
  obtain ⟨⟨k, o⟩, hmem, heq⟩ := List.mem_filterMap.1 h
  cases o with
  | none => cases heq
  | some v =>
    cases heq
    exact hmem

theorem Named.isName_of_mem (h : Named as ks ns) {p : String × α} (hp : p ∈ presentParts as) :
    IsName p.1 := by
  apply h.isName
  rw [← h.keys]
  exact List.mem_map.2 ⟨_, mem_of_mem_presentParts hp, rfl⟩

/-- The parts that are present keep their order. -/
theorem map_presentParts_sublist (as : List (String × Option α)) :
    ((presentParts as).map (·.1)).Sublist (as.map (·.1)) := by
  induction as with
  | nil => exact List.Sublist.slnil
  | cons a as ih =>
    obtain ⟨k, o⟩ := a
    cases o with
    | none => exact ih.cons _
    | some v => exact ih.cons_cons _

theorem Named.areAttributes {as : List (String × Option String)} (h : Named as ks ns) :
    AreAttributes (attributesOf as) where
  isName := fun _ hp => h.isName_of_mem hp
  nodup := (map_presentParts_sublist as).nodup (h.keys ▸ h.nodup)

/-- A name that no part has finds nothing. -/
theorem find?_presentParts_of_not_mem {f : String × α → β} {g : β → String}
    (hg : ∀ p, g (f p) = readName p.1) (h : Named as ks ns) {n : String} (hn : n ∉ ns) :
    ((presentParts as).map f).find? (fun b => g b = n) = none := by
  rw [List.find?_eq_none]
  intro b hb
  obtain ⟨p, hp, rfl⟩ := List.mem_map.1 hb
  have hmem : readName p.1 ∈ ns := by
    rw [← h.read, ← h.keys]
    exact List.mem_map.2 ⟨p.1, List.mem_map.2 ⟨_, mem_of_mem_presentParts hp, rfl⟩, rfl⟩
  rw [hg, decide_eq_true_eq]
  exact fun heq => hn (heq ▸ hmem)

theorem Named.tail {a : String × Option α} {k n : String}
    (h : Named (a :: as) (k :: ks) (n :: ns)) : Named as ks ns where
  keys := (List.cons.inj h.keys).2
  isName := fun k hk => h.isName k (List.mem_cons_of_mem _ hk)
  nodup := (List.nodup_cons.1 h.nodup).2
  read := (List.cons.inj h.read).2
  nodup_read := (List.nodup_cons.1 h.nodup_read).2

/-- **A part is found by its name if it is there**, whatever it is written as. -/
theorem find?_presentParts {f : String × α → β} {g : β → String} (hg : ∀ p, g (f p) = readName p.1)
    (h : Named as ks ns) (i : Nat) {k n : String} {o : Option α} (ho : as[i]? = some (k, o))
    (hn : ns[i]? = some n) :
    ((presentParts as).map f).find? (fun b => g b = n) = o.map fun v => f (k, v) := by
  induction as generalizing ks ns i with
  | nil => cases ho
  | cons a as ih =>
    obtain ⟨k', o'⟩ := a
    have hks := h.keys
    have hns := h.read
    subst hks hns
    have htail := Named.tail h
    have hfresh := (List.nodup_cons.1 h.nodup_read).1
    cases i with
    | zero =>
      cases ho
      cases hn
      cases o with
      -- the part is missing, and no other one has its name
      | none => exact find?_presentParts_of_not_mem hg htail hfresh
      | some v =>
        have hname := hg (k, v)
        show (f (k, v) :: (presentParts as).map f).find? _ = _
        rw [List.find?_cons, hname, decide_eq_true rfl]
        rfl
    | succ i =>
      have hrest := ih htail i ho hn
      cases o' with
      | none => exact hrest
      | some v =>
        have hname := hg (k', v)
        -- this part has another name than the one that is looked for
        have hne : readName k' ≠ n := by
          rintro rfl
          exact hfresh (List.mem_of_getElem? hn)
        show (f (k', v) :: (presentParts as).map f).find? _ = _
        rw [List.find?_cons, hname, decide_eq_false hne]
        exact hrest

end Parts

/-! ### Attributes -/

/-- **An attribute is found under the name of its part**, and none under that of a part that is
missing. -/
theorem attribute?_eq {e : Element} {as : List (String × Option String)} {ks ns : List String}
    (he : e.attributes = readAttributes (attributesOf as)) (h : Named as ks ns) (i : Nat)
    {k n : String} {o : Option String} (ho : as[i]? = some (k, o)) (hn : ns[i]? = some n) :
    e.attribute? n = o := by
  have hfind := find?_presentParts (f := fun p : String × String => (readName p.1, p.2))
    (g := (·.1)) (fun _ => rfl) h i ho hn
  unfold Element.attribute?
  rw [he, readAttributes, attributesOf_eq_presentParts, hfind]
  cases o <;> rfl

theorem attributeText?_eq {e : Element} {n : String} {o : Option String} (h : e.attribute? n = o)
    (ho : ∀ s ∈ o, Filled s) : attributeText? e n = o := by
  unfold attributeText?
  rw [h, filter_strip ho]

/-! ### Restrictions -/

theorem elements_eq_map (ms : List Markup) : Markup.elements ms = ms.map Markup.element := by
  induction ms with
  | nil => rfl
  | cons m ms ih => rw [Markup.elements, ih, List.map_cons]

/-- A constraint of a restriction as it is read. -/
def constraintElement (c : String × String) : Element :=
  { name := readName c.1, attributes := [(readName "value", c.2)] }

/-- A restriction is an element with one child for each constraint. -/
theorem element_restriction (base : String) (cs : List (String × String)) :
    (restriction base cs).element
      = { name := readName "xs:restriction"
          attributes := [(readName "base", base)]
          children := cs.map constraintElement } := by
  unfold restriction
  rw [Markup.element, elements_eq_map, List.map_map]
  rfl

/-- The text of a constraint is read without the blanks around it. -/
theorem constraintText_constraintElement (c : String × String) :
    constraintText (constraintElement c) = Text.strip c.2 := by
  have hvalue : (constraintElement c).attribute? "value" = some c.2 := rfl
  unfold constraintText
  rw [hvalue]
  rfl

variable {as : List (String × Option String)} {ks ns : List String} {e : Element}

/-- A bound is read as it was written. -/
theorem map_constraintText_child? (he : e.children = (attributesOf as).map constraintElement)
    (h : Named as ks ns) (htrim : ∀ a ∈ as, ∀ s ∈ a.2, Trimmed s) (i : Nat) {k n : String}
    {o : Option String} (ho : as[i]? = some (k, o)) (hn : ns[i]? = some n) :
    (e.child? n).map constraintText = o := by
  have hfind := find?_presentParts (f := constraintElement) (g := (·.name)) (fun _ => rfl) h i ho hn
  have hmem := List.mem_of_getElem? ho
  unfold Element.child?
  rw [he, attributesOf_eq_presentParts, hfind]
  cases o with
  | none => rfl
  | some s =>
    rw [Option.map_some, Option.map_some, constraintText_constraintElement, htrim _ hmem s rfl]

/-- A constraint that is not written is not found. -/
theorem map_constraintText_child?_of_not_mem
    (he : e.children = (attributesOf as).map constraintElement) (h : Named as ks ns) {n : String}
    (hn : n ∉ ns) : (e.child? n).map constraintText = none := by
  have hfind := find?_presentParts_of_not_mem (f := constraintElement) (g := (·.name))
    (fun _ => rfl) h hn
  unfold Element.child?
  rw [he, attributesOf_eq_presentParts, hfind]
  rfl

/-- Constraints that are not written are not found. -/
theorem childrenNamed_of_not_mem (he : e.children = (attributesOf as).map constraintElement)
    (h : Named as ks ns) {n : String} (hn : n ∉ ns) : e.childrenNamed n = [] := by
  have hfind := find?_presentParts_of_not_mem (f := constraintElement) (g := (·.name))
    (fun _ => rfl) h hn
  unfold Element.childrenNamed
  rw [he, attributesOf_eq_presentParts, List.filter_eq_nil_iff]
  exact List.find?_eq_none.1 hfind

/-- The bounds with their names, in the order in which they are written. -/
def Bounds.parts (b : Bounds) : List (String × Option String) :=
  [("xs:minInclusive", b.minInclusive), ("xs:minExclusive", b.minExclusive),
    ("xs:maxInclusive", b.maxInclusive), ("xs:maxExclusive", b.maxExclusive)]

/-- Bounds have different names, which are read without their prefix. -/
theorem Bounds.named_parts (b : Bounds) : Named b.parts
    ["xs:minInclusive", "xs:minExclusive", "xs:maxInclusive", "xs:maxExclusive"]
    ["minInclusive", "minExclusive", "maxInclusive", "maxExclusive"] where
  keys := rfl
  isName := by decide
  nodup := by decide
  read := by decide
  nodup_read := by decide

/-- The bounds on a length with their names, in the order in which they are written. -/
def LengthBounds.parts (l : LengthBounds) : List (String × Option String) :=
  [("xs:length", l.length), ("xs:minLength", l.minLength), ("xs:maxLength", l.maxLength)]

/-- Bounds on a length have different names, which are read without their prefix. -/
theorem LengthBounds.named_parts (l : LengthBounds) : Named l.parts
    ["xs:length", "xs:minLength", "xs:maxLength"] ["length", "minLength", "maxLength"] where
  keys := rfl
  isName := by decide
  nodup := by decide
  read := by decide
  nodup_read := by decide

/-- A pattern is the only part of its restriction. -/
theorem named_pattern (r : String) :
    Named [("xs:pattern", some r)] ["xs:pattern"] ["pattern"] where
  keys := rfl
  isName := by decide
  nodup := by decide
  read := by decide
  nodup_read := by decide

/-- **A pattern is read back.** -/
theorem ofRestriction?_pattern {r : String} (h : Trimmed r) (base : String) :
    Value.ofRestriction? (restriction base [("xs:pattern", r)]).element
      = some (.pattern r) := by
  have he : (restriction base [("xs:pattern", r)]).element.children
      = (attributesOf [("xs:pattern", some r)]).map constraintElement := by
    rw [element_restriction]
    rfl
  have htrim : ∀ a ∈ [("xs:pattern", some r)], ∀ s ∈ a.2, Trimmed s := by
    intro a ha s hs
    rw [List.mem_singleton.1 ha] at hs
    cases hs
    exact h
  have henumeration := childrenNamed_of_not_mem he (named_pattern r) (n := "enumeration")
    (by decide)
  have hpattern := map_constraintText_child? he (named_pattern r) htrim 0 rfl rfl
  unfold Value.ofRestriction?
  simp only [henumeration, hpattern, List.map_nil]

/-- **An enumeration is read back** if it has options. -/
theorem ofRestriction?_enumeration {os : List String} (hne : os ≠ []) (h : ∀ o ∈ os, Trimmed o) :
    Value.ofRestriction? (restriction "xs:string" (os.map (("xs:enumeration", ·)))).element
      = some (.enumeration os) := by
  have hname : ("enumeration" : String) = readName "xs:enumeration" := by decide
  have hall : ((restriction "xs:string" (os.map (("xs:enumeration", ·)))).element.childrenNamed
      "enumeration").map constraintText = os := by
    rw [element_restriction, List.map_map]
    unfold Element.childrenNamed
    rw [List.filter_eq_self.2]
    · rw [List.map_map]
      have hmap : os.map (constraintText ∘ (constraintElement ∘ (("xs:enumeration", ·)))) = os := by
        rw [List.map_congr_left (g := id), List.map_id]
        intro o ho
        show constraintText (constraintElement ("xs:enumeration", o)) = o
        rw [constraintText_constraintElement]
        exact h o ho
      exact hmap
    · intro e he
      obtain ⟨o, -, rfl⟩ := List.mem_map.1 he
      rw [decide_eq_true_eq, hname]
      rfl
  unfold Value.ofRestriction?
  simp only [hall]
  cases os with
  | nil => exact absurd rfl hne
  | cons o os => rfl

/-- **Bounds are read back** if there are any. -/
theorem ofRestriction?_bounds {b : Bounds} (hne : b ≠ {})
    (h : ∀ a ∈ b.parts, ∀ s ∈ a.2, Trimmed s) (base : String) :
    Value.ofRestriction? (restriction base (attributesOf b.parts)).element
      = some (.bounds b) := by
  have he : (restriction base (attributesOf b.parts)).element.children
      = (attributesOf b.parts).map constraintElement := by rw [element_restriction]
  have hnamed := b.named_parts
  have henumeration := childrenNamed_of_not_mem he hnamed (n := "enumeration") (by decide)
  have hpattern := map_constraintText_child?_of_not_mem he hnamed (n := "pattern") (by decide)
  have hminInclusive := map_constraintText_child? he hnamed h 0 rfl rfl
  have hminExclusive := map_constraintText_child? he hnamed h 1 rfl rfl
  have hmaxInclusive := map_constraintText_child? he hnamed h 2 rfl rfl
  have hmaxExclusive := map_constraintText_child? he hnamed h 3 rfl rfl
  unfold Value.ofRestriction?
  simp only [henumeration, hpattern, hminInclusive, hminExclusive, hmaxInclusive, hmaxExclusive,
    List.map_nil]
  exact if_pos hne

/-- **Bounds on a length are read back** if there are any. -/
theorem ofRestriction?_length {l : LengthBounds} (hne : l ≠ {})
    (h : ∀ a ∈ l.parts, ∀ s ∈ a.2, Trimmed s) (base : String) :
    Value.ofRestriction? (restriction base (attributesOf l.parts)).element
      = some (.length l) := by
  have he : (restriction base (attributesOf l.parts)).element.children
      = (attributesOf l.parts).map constraintElement := by rw [element_restriction]
  have hnamed := l.named_parts
  have henumeration := childrenNamed_of_not_mem he hnamed (n := "enumeration") (by decide)
  have hnone : ∀ n ∉ ["length", "minLength", "maxLength"],
      ((restriction base (attributesOf l.parts)).element.child? n).map constraintText = none :=
    fun _ hn => map_constraintText_child?_of_not_mem he hnamed hn
  have hpattern := hnone "pattern" (by decide)
  have hminInclusive := hnone "minInclusive" (by decide)
  have hmaxInclusive := hnone "maxInclusive" (by decide)
  have hminExclusive := hnone "minExclusive" (by decide)
  have hmaxExclusive := hnone "maxExclusive" (by decide)
  have hlength := map_constraintText_child? he hnamed h 0 rfl rfl
  have hminLength := map_constraintText_child? he hnamed h 1 rfl rfl
  have hmaxLength := map_constraintText_child? he hnamed h 2 rfl rfl
  unfold Value.ofRestriction?
  -- no bound is found, so the lengths are looked at
  simp only [henumeration, hpattern, hminInclusive, hmaxInclusive, hminExclusive, hmaxExclusive,
    hlength, hminLength, hmaxLength, List.map_nil]
  rw [if_neg (fun hbounds => hbounds rfl), if_pos hne]

/-! ### Values -/

/-- A restriction stands in an element with the name of its part. -/
theorem element_named (name : String) (v : Value) :
    (v.named name).element = { name := readName name, children := [v.toMarkup.element] } := by
  unfold Value.named
  rw [Markup.element, elements_eq_map]
  rfl

/-- What the element around a restriction holds. -/
theorem ofElement?_of_children {base : String} {cs : List (String × String)}
    (he : e.children = [(restriction base cs).element]) :
    Value.ofElement? e = Value.ofRestriction? (restriction base cs).element := by
  have hname : (restriction base cs).element.name = "restriction" := by
    rw [element_restriction]
    show readName "xs:restriction" = "restriction"
    decide
  have hsimple : e.child? "simpleValue" = none := by
    unfold Element.child?
    rw [he, List.find?_cons, hname, decide_eq_false (by decide)]
    rfl
  have hrestriction : e.child? "restriction" = some (restriction base cs).element := by
    unfold Element.child?
    rw [he, List.find?_cons, hname, decide_eq_true rfl]
  unfold Value.ofElement?
  rw [hsimple, hrestriction]
  rfl

/-- **A value is read back from the element around it.** -/
theorem Value.ofElement?_named {v : Value} (h : v.Canonical) (name : String) :
    Value.ofElement? (v.named name).element = some v := by
  rw [element_named]
  cases v with
  | simple s =>
    have hname : (Markup.text "simpleValue" s).element.name = "simpleValue" := by
      show readName "simpleValue" = "simpleValue"
      decide
    unfold Value.ofElement? Element.child?
    rw [Value.toMarkup, List.find?_cons, hname, decide_eq_true rfl]
    show some (Value.simple (Text.strip (readText s))) = some (.simple s)
    rw [readText_of_trimmed h, h]
  | pattern r =>
    rw [Value.toMarkup, ofElement?_of_children rfl]
    exact ofRestriction?_pattern h _
  | enumeration os =>
    rw [Value.toMarkup, ofElement?_of_children rfl]
    exact ofRestriction?_enumeration h.1 h.2
  | bounds b =>
    rw [Value.toMarkup, ofElement?_of_children rfl]
    refine ofRestriction?_bounds h.1 ?_ _
    intro a ha
    exact h.2 a.2 (List.mem_map.2 ⟨a, ha, rfl⟩)
  | length l =>
    rw [Value.toMarkup, ofElement?_of_children rfl]
    refine ofRestriction?_length h.1 ?_ _
    intro a ha
    exact h.2 a.2 (List.mem_map.2 ⟨a, ha, rfl⟩)

end BimAudit.Ids
