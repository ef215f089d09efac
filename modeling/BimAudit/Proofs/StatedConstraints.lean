import BimAudit.Ids.Reader

/-!
# Which constraints of a restriction count

A restriction states any constraints, each by a child with its name, while a value restriction holds
one kind of them. The kinds come in an order: enumerations, a pattern, bounds, lengths. The first
kind that is stated counts, of a repeated pattern, bound or length the first one; what is stated
besides is dropped.

* `Rule`: the constraints by name. `Satisfies`: a text satisfies all that some elements state.
* `kept`: the constraints that count.
* `accepts_of_ofRestriction?`: **the texts that a restriction accepts are those that satisfy the
  constraints kept**, so they satisfy all constraints if none is dropped.
* `exists_dropped_constraint`: a text is accepted although it is too short.
-/

namespace BimAudit.Ids

open Xml (Element)
open Decimal (number?)

/-- The constraints on a text. -/
inductive Rule where
  | enumeration
  | pattern
  | minInclusive
  | maxInclusive
  | minExclusive
  | maxExclusive
  | minLength
  | maxLength
  | length
deriving DecidableEq

namespace Rule

/-- The name of an element that states the constraint. -/
def name : Rule → String
  | enumeration => "enumeration"
  | pattern => "pattern"
  | minInclusive => "minInclusive"
  | maxInclusive => "maxInclusive"
  | minExclusive => "minExclusive"
  | maxExclusive => "maxExclusive"
  | minLength => "minLength"
  | maxLength => "maxLength"
  | length => "length"

/-- Different constraints have different names. -/
theorem name_inj {r q : Rule} (h : r.name = q.name) : r = q := by
  revert h
  cases r <;> cases q <;> decide

/-- Of several constraints one is enough. -/
def isChoice : Rule → Bool
  | enumeration | pattern => true
  | _ => false

/-- The text is a number that compares with the value. -/
def Compares (ok : Float → Float → Bool) (value text : String) : Prop :=
  ∃ x b, number? text = some x ∧ number? value = some b ∧ ok x b = true

/-- The number of characters of the text compares with the value. -/
def Counts (ok : Nat → Nat → Bool) (value text : String) : Prop :=
  ∃ n, lengthBound? value = some n ∧ ok text.length n = true

/-- What the constraint with a value says of a text. -/
def Holds (value text : String) : Rule → Prop
  | enumeration => text = value
  | pattern => patternAccepts value text = true
  | minInclusive => Compares (· ≥ ·) value text
  | maxInclusive => Compares (· ≤ ·) value text
  | minExclusive => Compares (· > ·) value text
  | maxExclusive => Compares (· < ·) value text
  | minLength => Counts (· ≥ ·) value text
  | maxLength => Counts (· ≤ ·) value text
  | length => Counts (· == ·) value text

end Rule

/-- The values of the constraints of a kind that some elements state. -/
def stated (cs : List Element) (r : Rule) : List String :=
  (cs.filter (·.name = r.name)).map constraintText

/-- A text satisfies what some values of one rule say. -/
def Rule.Allows (r : Rule) (values : List String) (text : String) : Prop :=
  if r.isChoice then values ≠ [] → ∃ v ∈ values, r.Holds v text else ∀ v ∈ values, r.Holds v text

/-- **A text satisfies every constraint** that some elements state. -/
def Satisfies (cs : List Element) (text : String) : Prop := ∀ r : Rule, r.Allows (stated cs r) text

/-- The rules on a number. -/
def boundRules : List Rule := [.minInclusive, .maxInclusive, .minExclusive, .maxExclusive]

/-- The rules on the number of characters. -/
def lengthRules : List Rule := [.minLength, .maxLength, .length]

/-- The rules that count together, in the order in which they are looked for. -/
def groups : List (List Rule) := [[.enumeration], [.pattern], boundRules, lengthRules]

/-- The constraints of a rule that count: every enumeration, and the first of the others. -/
def keptOf (cs : List Element) (r : Rule) : List Element :=
  if r = .enumeration then cs.filter (·.name = r.name) else (cs.find? (·.name = r.name)).toList

/-- The constraints of the first group that is stated. -/
def kept (cs : List Element) : List Element :=
  ((groups.map fun g => g.flatMap (keptOf cs)).find? (· ≠ [])).getD []

/-- No constraint is dropped, other than one of which another is enough. -/
def KeepsAll (cs : List Element) : Prop :=
  ∀ r : Rule, if r.isChoice then stated cs r ≠ [] → stated (kept cs) r ≠ []
    else ∀ v ∈ stated cs r, v ∈ stated (kept cs) r

variable {cs : List Element} {r : Rule} {text : String}

/-! ### What is kept -/

/-- What is kept of a rule states this rule. -/
theorem name_of_mem_keptOf {e : Element} (h : e ∈ keptOf cs r) : e.name = r.name := by
  unfold keptOf at h
  split at h
  · simpa using (List.mem_filter.1 h).2
  · simpa using List.find?_some (Option.mem_toList.1 h)

theorem mem_of_mem_keptOf {e : Element} (h : e ∈ keptOf cs r) : e ∈ cs := by
  unfold keptOf at h
  split at h
  · exact (List.mem_filter.1 h).1
  · exact List.mem_of_find?_eq_some (Option.mem_toList.1 h)

theorem mem_of_mem_kept {e : Element} (h : e ∈ kept cs) : e ∈ cs := by
  unfold kept at h
  cases hfind : (groups.map fun g => g.flatMap (keptOf cs)).find? (· ≠ []) with
  | none =>
    rw [hfind] at h
    cases h
  | some ks =>
    rw [hfind, Option.getD_some] at h
    obtain ⟨g, -, rfl⟩ := List.mem_map.1 (List.mem_of_find?_eq_some hfind)
    obtain ⟨r, -, hr⟩ := List.mem_flatMap.1 h
    exact mem_of_mem_keptOf hr

theorem mem_stated_of_mem_stated_kept {v : String} (h : v ∈ stated (kept cs) r) :
    v ∈ stated cs r := by
  obtain ⟨e, he, rfl⟩ := List.mem_map.1 h
  obtain ⟨hmem, hname⟩ := List.mem_filter.1 he
  exact List.mem_map.2 ⟨e, List.mem_filter.2 ⟨mem_of_mem_kept hmem, hname⟩, rfl⟩

/-- What is kept of one rule states no other. -/
theorem stated_keptOf (r q : Rule) :
    stated (keptOf cs q) r = if r = q then (keptOf cs r).map constraintText else [] := by
  unfold stated
  split
  · next heq =>
    subst heq
    rw [List.filter_eq_self.2]
    intro e he
    exact decide_eq_true (name_of_mem_keptOf he)
  · next hne =>
    rw [List.map_eq_nil_iff, List.filter_eq_nil_iff]
    intro e he heq
    exact hne (Rule.name_inj ((of_decide_eq_true heq).symm.trans (name_of_mem_keptOf he)))

/-- In a group of rules each one states what counts of it, and no other states anything. -/
theorem stated_flatMap {g : List Rule} (hg : g.Nodup) (r : Rule) :
    stated (g.flatMap (keptOf cs)) r
      = if r ∈ g then (keptOf cs r).map constraintText else [] := by
  induction g with
  | nil => rfl
  | cons q g ih =>
    obtain ⟨hnot, hg⟩ := List.nodup_cons.1 hg
    have happend : stated ((q :: g).flatMap (keptOf cs)) r
        = stated (keptOf cs q) r ++ stated (g.flatMap (keptOf cs)) r := by
      unfold stated
      rw [List.flatMap_cons, List.filter_append, List.map_append]
    rw [happend, stated_keptOf, ih hg]
    by_cases hrq : r = q
    · subst hrq
      rw [if_pos rfl, if_neg hnot, if_pos List.mem_cons_self, List.append_nil]
    · simp [hrq]

/-- Without a value a rule allows every text. -/
theorem allows_nil (r : Rule) (text : String) : r.Allows [] text := by
  unfold Rule.Allows
  split
  · exact fun h => absurd rfl h
  · exact fun v hv => nomatch hv

/-- To satisfy what is kept of several rules is to be allowed by each of them. -/
theorem satisfies_flatMap {g : List Rule} (hg : g.Nodup) (text : String) :
    Satisfies (g.flatMap (keptOf cs)) text
      ↔ ∀ r ∈ g, r.Allows ((keptOf cs r).map constraintText) text := by
  unfold Satisfies
  constructor
  · intro h r hr
    have hr' := h r
    rwa [stated_flatMap hg, if_pos hr] at hr'
  · intro h r
    rw [stated_flatMap hg]
    split
    · next hr => exact h r hr
    · exact allows_nil r text

/-- The first group of rules that is stated counts. -/
theorem kept_cases (cs : List Element) :
    (keptOf cs .enumeration ≠ [] ∧ kept cs = [Rule.enumeration].flatMap (keptOf cs)) ∨
      keptOf cs .enumeration = [] ∧
        ((keptOf cs .pattern ≠ [] ∧ kept cs = [Rule.pattern].flatMap (keptOf cs)) ∨
          keptOf cs .pattern = [] ∧
            ((boundRules.flatMap (keptOf cs) ≠ [] ∧ kept cs = boundRules.flatMap (keptOf cs)) ∨
              boundRules.flatMap (keptOf cs) = [] ∧
                kept cs = lengthRules.flatMap (keptOf cs))) := by
  have hsingle : ∀ r : Rule, [r].flatMap (keptOf cs) = keptOf cs r := fun r => by simp
  unfold kept groups
  simp only [List.map_cons, List.map_nil, hsingle]
  by_cases h₁ : keptOf cs .enumeration = []
  · refine .inr ⟨h₁, ?_⟩
    by_cases h₂ : keptOf cs .pattern = []
    · refine .inr ⟨h₂, ?_⟩
      by_cases h₃ : boundRules.flatMap (keptOf cs) = []
      · refine .inr ⟨h₃, ?_⟩
        by_cases h₄ : lengthRules.flatMap (keptOf cs) = []
        · simp [h₁, h₂, h₃, h₄]
        · simp [h₁, h₂, h₃, h₄]
      · exact .inl ⟨h₃, by simp [h₁, h₂, h₃]⟩
    · exact .inl ⟨h₂, by simp [h₁, h₂]⟩
  · exact .inl ⟨h₁, by simp [h₁]⟩

/-! ### What is read -/

/-- The first value of a rule that an element states. -/
def firstValue (e : Element) (r : Rule) : Option String := (e.child? r.name).map constraintText

variable {e : Element}

/-- Of a rule other than an enumeration the first value is kept. -/
theorem map_keptOf (h : r ≠ .enumeration) :
    (keptOf e.children r).map constraintText = (firstValue e r).toList := by
  unfold keptOf firstValue Element.child?
  rw [if_neg h, Option.toList_map]

/-- A rule of which one value is kept allows the texts for which it holds. -/
theorem allows_toList (h : r.isChoice = false) (o : Option String) (text : String) :
    r.Allows o.toList text ↔ ∀ v ∈ o, r.Holds v text := by
  unfold Rule.Allows
  rw [h]
  simp

/-- A bound is met if it can be read and is satisfied. -/
theorem meetsBound_iff {α : Type} {read : String → Option α} {ok : α → Bool} {o : Option String} :
    meetsBound read ok o = true ↔ ∀ v ∈ o, ∃ b, read v = some b ∧ ok b = true := by
  unfold meetsBound
  rw [Option.all_eq_true]
  refine forall₂_congr fun v _ => ?_
  rw [Option.any_eq_true]

/-- A bound on a number is met if the number compares with it. -/
theorem compares_iff {x : Float} (hx : number? text = some x) (ok : Float → Float → Bool)
    (o : Option String) :
    meetsBound number? (ok x) o = true ↔ ∀ v ∈ o, Rule.Compares ok v text := by
  rw [meetsBound_iff]
  refine forall₂_congr fun v _ => ?_
  constructor
  · rintro ⟨b, hb, hok⟩
    exact ⟨x, b, hx, hb, hok⟩
  · rintro ⟨y, b, hy, hb, hok⟩
    rw [hx] at hy
    cases hy
    exact ⟨b, hb, hok⟩

/-- Bounds of which there is at least one accept what each of them accepts. -/
theorem Bounds.accepts_iff {b : Bounds} (hb : b ≠ {}) :
    b.accepts text = true ↔ (∀ v ∈ b.minInclusive, Rule.Compares (· ≥ ·) v text) ∧
      (∀ v ∈ b.maxInclusive, Rule.Compares (· ≤ ·) v text) ∧
      (∀ v ∈ b.minExclusive, Rule.Compares (· > ·) v text) ∧
      ∀ v ∈ b.maxExclusive, Rule.Compares (· < ·) v text := by
  unfold Bounds.accepts
  cases hx : number? text with
  | some x =>
    simp only [Option.any_some, Bool.and_eq_true, and_assoc]
    exact and_congr (compares_iff hx (· ≥ ·) _) (and_congr (compares_iff hx (· ≤ ·) _)
      (and_congr (compares_iff hx (· > ·) _) (compares_iff hx (· < ·) _)))
  | none =>
    -- no bound that is there compares with a text that is no number
    have hnone : ∀ (ok : Float → Float → Bool) (o : Option String),
        (∀ v ∈ o, Rule.Compares ok v text) → o = none := by
      intro ok o h
      cases o with
      | none => rfl
      | some v =>
        obtain ⟨x, -, htext, -⟩ := h v rfl
        rw [hx] at htext
        cases htext
    refine iff_of_false (by simp) fun ⟨h₁, h₂, h₃, h₄⟩ => hb ?_
    cases b
    simp only [Bounds.mk.injEq]
    exact ⟨hnone _ _ h₁, hnone _ _ h₂, hnone _ _ h₃, hnone _ _ h₄⟩

/-- **Bounds on a length** accept the texts whose numbers of characters compare with all of them. -/
theorem LengthBounds.accepts_iff {l : LengthBounds} :
    l.accepts text = true ↔ (∀ v ∈ l.minLength, Rule.Counts (· ≥ ·) v text) ∧
      (∀ v ∈ l.maxLength, Rule.Counts (· ≤ ·) v text) ∧
      ∀ v ∈ l.length, Rule.Counts (· == ·) v text := by
  unfold LengthBounds.accepts
  simp only [Bool.and_eq_true, meetsBound_iff]
  constructor
  · rintro ⟨⟨hlength, hmin⟩, hmax⟩
    exact ⟨hmin, hmax, hlength⟩
  · rintro ⟨hmin, hmax, hlength⟩
    exact ⟨⟨hlength, hmin⟩, hmax⟩

theorem firstValue_eq_none_iff (h : r ≠ .enumeration) :
    firstValue e r = none ↔ keptOf e.children r = [] := by
  rw [← Option.toList_eq_nil_iff, ← map_keptOf h, List.map_eq_nil_iff]

/-- The bounds that count. -/
def boundsOf (e : Element) : Bounds :=
  ⟨firstValue e .minInclusive, firstValue e .maxInclusive, firstValue e .minExclusive,
    firstValue e .maxExclusive⟩

/-- The bounds on the length that count. -/
def lengthsOf (e : Element) : LengthBounds :=
  ⟨firstValue e .minLength, firstValue e .maxLength, firstValue e .length⟩

theorem boundsOf_eq_empty_iff : boundsOf e = {} ↔ boundRules.flatMap (keptOf e.children) = [] := by
  rw [List.flatMap_eq_nil_iff]
  simp [boundsOf, boundRules, firstValue_eq_none_iff]

theorem lengthsOf_eq_empty_iff :
    lengthsOf e = {} ↔ lengthRules.flatMap (keptOf e.children) = [] := by
  rw [List.flatMap_eq_nil_iff]
  simp [lengthsOf, lengthRules, firstValue_eq_none_iff]

/-- The restriction that an element gives. -/
theorem ofRestriction?_eq (e : Element) : Value.ofRestriction? e =
    if keptOf e.children .enumeration ≠ [] then
      some (.enumeration ((keptOf e.children .enumeration).map constraintText))
    else match firstValue e .pattern with
      | some r => some (.pattern r)
      | none => if boundsOf e ≠ {} then some (.bounds (boundsOf e))
        else if lengthsOf e ≠ {} then some (.length (lengthsOf e)) else none := by
  have hoptions : (e.childrenNamed "enumeration").map constraintText
      = (keptOf e.children .enumeration).map constraintText := rfl
  unfold Value.ofRestriction?
  rw [hoptions]
  cases h : keptOf e.children .enumeration with
  | nil => rfl
  | cons c os => rfl

/-- An enumeration accepts the texts that its options allow. -/
theorem allows_enumeration {os : List String} (hos : os ≠ []) :
    Rule.enumeration.Allows os text ↔ (Value.enumeration os).accepts text = true := by
  have haccepts : (Value.enumeration os).accepts text = true ↔ text ∈ os := List.contains_iff_mem
  rw [haccepts]
  constructor
  · intro h
    obtain ⟨v, hv, heq⟩ := h hos
    have heq : text = v := heq
    exact heq ▸ hv
  · exact fun h _ => ⟨text, h, rfl⟩

/-- A pattern accepts the texts that it allows. -/
theorem allows_pattern (p : String) :
    Rule.pattern.Allows [p] text ↔ (Value.pattern p).accepts text = true := by
  constructor
  · intro h
    obtain ⟨v, hv, hholds⟩ := h (List.cons_ne_nil _ _)
    rw [List.mem_singleton.1 hv] at hholds
    exact hholds
  · exact fun h _ => ⟨p, List.mem_singleton_self p, h⟩

/-- Of rules that all have to hold, the first values have to be met. -/
theorem satisfies_first {g : List Rule} (hg : g.Nodup) (hall : ∀ r ∈ g, r.isChoice = false) :
    Satisfies (g.flatMap (keptOf e.children)) text ↔
      ∀ r ∈ g, ∀ v ∈ firstValue e r, r.Holds v text := by
  rw [satisfies_flatMap hg]
  refine forall₂_congr fun r hr => ?_
  have hchoice := hall r hr
  have hne : r ≠ .enumeration := by
    rintro rfl
    cases hchoice
  rw [map_keptOf hne, allows_toList hchoice]

/-- **Bounds accept the texts that satisfy all of them.** -/
theorem accepts_boundsOf (h : boundsOf e ≠ {}) : (boundsOf e).accepts text = true ↔
    Satisfies (boundRules.flatMap (keptOf e.children)) text := by
  rw [satisfies_first (by decide) (by decide), Bounds.accepts_iff h]
  simp only [boundRules, List.forall_mem_cons, List.not_mem_nil, false_implies, implies_true,
    and_true]
  exact Iff.rfl

/-- **Bounds on a length accept the texts that satisfy all of them.** -/
theorem accepts_lengthsOf : (lengthsOf e).accepts text = true ↔
    Satisfies (lengthRules.flatMap (keptOf e.children)) text := by
  rw [satisfies_first (by decide) (by decide), LengthBounds.accepts_iff]
  simp only [lengthRules, List.forall_mem_cons, List.not_mem_nil, false_implies, implies_true,
    and_true]
  exact Iff.rfl

/-- Where something is kept, there is a restriction, and it accepts what satisfies that. -/
theorem ofRestriction?_of_kept (h : kept e.children ≠ []) :
    ∃ v, Value.ofRestriction? e = some v ∧
      ∀ text, v.accepts text = true ↔ Satisfies (kept e.children) text := by
  rw [ofRestriction?_eq]
  rcases kept_cases e.children with
    ⟨henumeration, hkept⟩ | ⟨henumeration, ⟨hpattern, hkept⟩ | ⟨hpattern, hrest⟩⟩
  · refine ⟨_, if_pos henumeration, fun text => ?_⟩
    rw [hkept, satisfies_flatMap (by decide)]
    have hne : (keptOf e.children .enumeration).map constraintText ≠ [] := by
      rwa [ne_eq, List.map_eq_nil_iff]
    simp only [List.mem_singleton, forall_eq]
    exact (allows_enumeration hne).symm
  · rw [if_neg fun hne => hne henumeration]
    cases hp : firstValue e .pattern with
    | none => exact absurd ((firstValue_eq_none_iff (by decide)).1 hp) hpattern
    | some p =>
      refine ⟨_, rfl, fun text => ?_⟩
      rw [hkept, satisfies_flatMap (by decide)]
      simp only [List.mem_singleton, forall_eq]
      rw [map_keptOf (by decide), hp]
      exact (allows_pattern p).symm
  · rw [if_neg fun hne => hne henumeration, (firstValue_eq_none_iff (by decide)).2 hpattern]
    rcases hrest with ⟨hbounds, hkept⟩ | ⟨hbounds, hkept⟩
    · have hne : boundsOf e ≠ {} := fun heq => hbounds (boundsOf_eq_empty_iff.1 heq)
      refine ⟨_, if_pos hne, fun text => ?_⟩
      rw [hkept]
      exact accepts_boundsOf hne
    · have heq : boundsOf e = {} := boundsOf_eq_empty_iff.2 hbounds
      have hne : lengthsOf e ≠ {} := fun heq => h (hkept.trans (lengthsOf_eq_empty_iff.1 heq))
      refine ⟨.length (lengthsOf e), ?_, fun text => ?_⟩
      · simp only [heq, ne_eq, not_true_eq_false, if_false]
        exact if_pos hne
      · rw [hkept]
        exact accepts_lengthsOf

theorem keptOf_ne_nil (h : stated cs r ≠ []) : keptOf cs r ≠ [] := by
  unfold stated at h
  rw [ne_eq, List.map_eq_nil_iff] at h
  unfold keptOf
  split
  · exact h
  · rw [ne_eq, Option.toList_eq_nil_iff, List.find?_eq_none]
    rwa [List.filter_eq_nil_iff] at h

theorem exists_group (r : Rule) : r = .enumeration ∨ r = .pattern ∨ r ∈ boundRules ∨
    r ∈ lengthRules := by
  cases r <;> decide

/-- Something is kept if anything is stated. -/
theorem kept_ne_nil (h : stated cs r ≠ []) : kept cs ≠ [] := by
  have hr := keptOf_ne_nil h
  have hflat : ∀ g : List Rule, r ∈ g → g.flatMap (keptOf cs) ≠ [] := fun g hg heq =>
    hr (List.flatMap_eq_nil_iff.1 heq r hg)
  rcases kept_cases cs with
    ⟨henumeration, hkept⟩ | ⟨henumeration, ⟨hpattern, hkept⟩ | ⟨hpattern, ⟨hbounds, hkept⟩ |
      ⟨hbounds, hkept⟩⟩⟩ <;> rw [hkept]
  · simpa using henumeration
  · simpa using hpattern
  · exact hbounds
  · -- none of the groups before the last one is stated
    refine hflat _ ?_
    rcases exists_group r with rfl | rfl | hr' | hr'
    · exact absurd henumeration hr
    · exact absurd hpattern hr
    · exact absurd hbounds (hflat _ hr')
    · exact hr'

/-- Where nothing is dropped, what is kept says everything. -/
theorem satisfies_of_keepsAll (h : KeepsAll cs) (hkept : Satisfies (kept cs) text) :
    Satisfies cs text := by
  intro r
  have hr := h r
  have hallows := hkept r
  unfold Rule.Allows at hallows ⊢
  cases hchoice : r.isChoice with
  | true =>
    rw [hchoice, if_pos rfl] at hr hallows
    rw [if_pos rfl]
    intro hne
    obtain ⟨v, hv, hholds⟩ := hallows (hr hne)
    exact ⟨v, mem_stated_of_mem_stated_kept hv, hholds⟩
  | false =>
    rw [hchoice] at hr hallows
    exact fun v hv => hallows v (hr v hv)

/-- **The constraints kept are what counts.** An element that states constraints, whichever and in
whatever order, gives a restriction; it accepts the texts that satisfy the constraints kept, and so,
if no constraint is dropped, only texts that satisfy every one. -/
theorem accepts_of_ofRestriction? (h : ∃ r, stated e.children r ≠ []) :
    ∃ v, Value.ofRestriction? e = some v ∧ ∀ text,
      (v.accepts text = true ↔ Satisfies (kept e.children) text) ∧
      (KeepsAll e.children → v.accepts text = true → Satisfies e.children text) := by
  obtain ⟨r, hr⟩ := h
  obtain ⟨v, hv, haccepts⟩ := ofRestriction?_of_kept (kept_ne_nil hr)
  refine ⟨v, hv, fun text => ⟨haccepts text, fun hall htext => ?_⟩⟩
  exact satisfies_of_keepsAll hall ((haccepts text).1 htext)

/-- A restriction of some constraints, each with its value. -/
def restrictionElement (constraints : List (String × String)) : Element where
  name := "restriction"
  children := constraints.map fun c => { name := c.1, attributes := [("value", c.2)] }

/-- Two patterns of which one is enough, and nothing is dropped. -/
theorem accepts_of_ofRestriction?_patterns :
    KeepsAll (restrictionElement [("pattern", "^W"), ("pattern", "^D")]).children ∧
      ∃ v, Value.ofRestriction? (restrictionElement [("pattern", "^W"), ("pattern", "^D")])
        = some v ∧ ∀ text, v.accepts text = true →
          Satisfies (restrictionElement [("pattern", "^W"), ("pattern", "^D")]).children text := by
  have hall : KeepsAll (restrictionElement [("pattern", "^W"), ("pattern", "^D")]).children := by
    intro r
    cases r <;> decide
  obtain ⟨v, hv, haccepts⟩ := accepts_of_ofRestriction?
    (e := restrictionElement [("pattern", "^W"), ("pattern", "^D")]) ⟨.pattern, by decide⟩
  exact ⟨hall, v, hv, fun text => (haccepts text).2 hall⟩

/-- **A constraint is dropped.** Next to an enumeration a least length does not count, so a text is
accepted that is too short. -/
theorem exists_dropped_constraint :
    Value.ofRestriction? (restrictionElement [("enumeration", "A"), ("minLength", "2")])
        = some (.enumeration ["A"]) ∧
      (Value.enumeration ["A"]).accepts "A" = true ∧
      ¬ Satisfies (restrictionElement [("enumeration", "A"), ("minLength", "2")]).children "A" := by
  refine ⟨by decide, by decide, fun h => ?_⟩
  have hlength := h .minLength
  obtain ⟨n, hn, hle⟩ : Rule.Counts (· ≥ ·) "2" "A" := hlength "2" (by decide)
  have htwo : lengthBound? "2" = some 2 := by decide
  rw [htwo] at hn
  cases hn
  revert hle
  decide

end BimAudit.Ids
