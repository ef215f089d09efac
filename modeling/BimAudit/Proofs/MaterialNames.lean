import BimAudit.Proofs.RecordOrder

/-!
# Names of materials

The names of the materials that a record leads to are collected on a walk along the references. The
walk enters no record twice and goes no deeper than a limit, and the two do not go together: a
record that is first met at the limit counts as seen although nothing behind it has been looked at,
so that a shorter way through it, taken later, ends there.

* `Store.Chain`: the chains of references, through records that exist and are no materials.
* `Store.Late`: what stands at the end of a longest chain without repetition. Only there a walk can
  be cut short.
* `Store.walk_keeps`: what each visit keeps, the whole walk keeps.
* `Store.Explored`: how far a walk has come while some records are still open. `Explored.walk`: a
  walk from the next one keeps it.
* `Store.materialNames_of_chains`: **the names found are the names within reach**, as far as no
  late record stands in between. `Store.exists_missed_material`: one that does may hide a name.
-/

namespace BimAudit.Ifc.Store

open Step (Record)

/-! ### Chains of references -/

/-- The record bears the name of a material: its first text, unless that is empty. -/
def BearsName (r : Record) (name : String) : Prop :=
  namesMaterial r.type = true ∧ r.strings.head? = some name ∧ name ≠ ""

instance (r : Record) (name : String) : Decidable (BearsName r name) :=
  inferInstanceAs (Decidable (_ ∧ _ ∧ _))

/-- The record with the id exists and bears the name of a material. -/
def Names (st : Store) (id : Nat) (name : String) : Prop :=
  ∃ r, st.find? id = some r ∧ BearsName r name

/-- The record with the first id exists, is no material and refers to the second id. -/
def Leads (st : Store) (a b : Nat) : Prop :=
  ∃ r, st.find? a = some r ∧ r.type ≠ "IFCMATERIAL" ∧ b ∈ r.links

/-- A chain of references from one id to another, with the ids before the last one, the latest
first. It has as many references as there are ids before the last one. -/
inductive Chain (st : Store) (start : Nat) : Nat → List Nat → Prop where
  | start : Chain st start start []
  | snoc {a b : Nat} {p : List Nat} : Chain st start a p → st.Leads a b → Chain st start b (a :: p)

/-- A chain of as many references as the limit allows, without a repetition, leads to the id. -/
def Late (st : Store) (limit start id : Nat) : Prop :=
  ∃ p, st.Chain start id p ∧ (id :: p).Nodup ∧ p.length = limit

variable {st : Store} {w : Walk} {r : Record} {name : String} {id start limit n : Nat}

/-! ### One visit -/

/-- Where a walk goes on to from an id. -/
def children (st : Store) (id : Nat) : List Nat :=
  match st.find? id with
  | none => []
  | some r => if r.type = "IFCMATERIAL" then [] else r.links

/-- The id counts as seen from now on, and the name of its record is noted. -/
def visit (st : Store) (id : Nat) (w : Walk) : Walk :=
  match st.find? id with
  | none => { w with seen := id :: w.seen }
  | some r => Walk.note { w with seen := id :: w.seen } r

theorem mem_children {b : Nat} : b ∈ st.children id ↔ st.Leads id b := by
  unfold children Leads
  cases hr : st.find? id with
  | none => simp
  | some r =>
    by_cases ht : r.type = "IFCMATERIAL"
    · simp [ht]
    · simp [ht]

theorem walk_zero (st : Store) (id : Nat) (w : Walk) : st.walk 0 id w = w := rfl

theorem walk_of_mem (h : id ∈ w.seen) : st.walk (n + 1) id w = w := by
  rw [walk, if_pos h]

/-- A record that is met for the first time is noted and followed. -/
theorem walk_of_not_mem (h : id ∉ w.seen) : st.walk (n + 1) id w
    = (st.children id).foldl (fun w child => st.walk n child w) (st.visit id w) := by
  rw [walk, if_neg h]
  unfold children visit
  cases hr : st.find? id with
  | none => rfl
  | some r =>
    by_cases ht : r.type = "IFCMATERIAL"
    · simp [ht]
    · simp [ht]

theorem seen_note : (w.note r).seen = w.seen := by
  unfold Walk.note
  split
  · split
    · split <;> rfl
    · rfl
  · rfl

@[simp] theorem seen_visit : (st.visit id w).seen = id :: w.seen := by
  unfold visit
  split
  · rfl
  · exact seen_note

/-- A name is noted if it is not empty and not noted already. -/
theorem mem_names_note : name ∈ (w.note r).names ↔ name ∈ w.names ∨ BearsName r name := by
  unfold Walk.note BearsName
  by_cases htype : namesMaterial r.type = true
  · rw [if_pos htype]
    cases hfirst : r.strings.head? with
    | none => simp
    | some first =>
      simp only [htype, true_and, Option.some.injEq]
      by_cases hnew : first ≠ "" ∧ first ∉ w.names
      · rw [if_pos hnew, List.mem_append, List.mem_singleton]
        constructor
        · rintro (hold | rfl)
          · exact .inl hold
          · exact .inr ⟨rfl, hnew.1⟩
        · rintro (hold | ⟨rfl, -⟩)
          · exact .inl hold
          · exact .inr rfl
      · rw [if_neg hnew]
        refine ⟨.inl, ?_⟩
        rintro (hold | ⟨rfl, hne⟩)
        · exact hold
        · -- the name has been noted before
          by_contra hnot
          exact hnew ⟨hne, hnot⟩
  · rw [if_neg htype]
    simp [htype]

theorem nodup_names_note (h : w.names.Nodup) : (w.note r).names.Nodup := by
  unfold Walk.note
  split
  · split
    · split
      next hnew => exact h.append (List.nodup_singleton _) (List.disjoint_singleton.2 hnew.2)
      next hold => exact h
    · exact h
  · exact h

/-! ### What a walk keeps -/

/-- **What each visit of a new record keeps, a walk keeps.** -/
theorem walk_keeps {P : Walk → Prop} (hvisit : ∀ id w, id ∉ w.seen → P w → P (st.visit id w))
    (n id : Nat) (hw : P w) : P (st.walk n id w) := by
  induction n generalizing id w with
  | zero => exact hw
  | succ n ih =>
    by_cases hid : id ∈ w.seen
    · rwa [walk_of_mem hid]
    · rw [walk_of_not_mem hid]
      exact List.foldlRecOn _ _ (hvisit id w hid hw) fun w hw child _ => ih child hw

/-- What has been seen stays seen. -/
theorem mem_seen_walk_of_mem {b : Nat} (h : b ∈ w.seen) (n id : Nat) :
    b ∈ (st.walk n id w).seen := by
  refine walk_keeps (P := fun w => b ∈ w.seen) ?_ n id h
  intro id w _ hb
  rw [seen_visit]
  exact List.mem_cons_of_mem id hb

/-- A walk has seen the record at which it started. -/
theorem mem_seen_walk (n id : Nat) (w : Walk) : id ∈ (st.walk (n + 1) id w).seen := by
  by_cases hid : id ∈ w.seen
  · rwa [walk_of_mem hid]
  · rw [walk_of_not_mem hid]
    refine List.foldlRecOn (motive := fun w : Walk => id ∈ w.seen) _ _ ?_ ?_
    · rw [seen_visit]
      exact List.mem_cons_self
    · intro w hw child _
      exact mem_seen_walk_of_mem hw n child

/-- All ids that a walk goes on to from one place count as seen afterwards. -/
theorem mem_seen_foldl_walk {b : Nat} {ids : List Nat} (hb : b ∈ ids) (n : Nat) (w : Walk) :
    b ∈ (ids.foldl (fun w child => st.walk (n + 1) child w) w).seen := by
  obtain ⟨before, after, rfl⟩ := List.append_of_mem hb
  rw [List.foldl_append, List.foldl_cons]
  refine List.foldlRecOn (motive := fun w : Walk => b ∈ w.seen) _ _ (mem_seen_walk n b _) ?_
  intro w hw child _
  exact mem_seen_walk_of_mem hw (n + 1) child

/-- The names noted on a walk are those of the records seen, each of them once. -/
structure Noted (st : Store) (w : Walk) : Prop where
  nodup : w.names.Nodup
  mem_names : ∀ name, name ∈ w.names ↔ ∃ b ∈ w.seen, st.Names b name

/-- A visit notes one record, and only names that it bears. -/
theorem Noted.visit (h : st.Noted w) (id : Nat) : st.Noted (st.visit id w) := by
  -- the id gives the names that its record bears, if there is one
  have hnew : ∀ name, name ∈ (st.visit id w).names ↔ name ∈ w.names ∨ st.Names id name := by
    intro name
    unfold Store.visit Names
    cases hr : st.find? id with
    | none => simp
    | some r =>
      simp only
      rw [mem_names_note]
      simp
  constructor
  · unfold Store.visit
    split
    · exact h.nodup
    · exact nodup_names_note h.nodup
  · intro name
    rw [hnew, h.mem_names, seen_visit]
    simp only [List.mem_cons, exists_eq_or_imp]
    exact or_comm

/-- A walk from nothing notes only the names of records that it has seen. -/
theorem noted_walk (st : Store) (n id : Nat) : st.Noted (st.walk n id {}) := by
  refine walk_keeps (fun id w _ hw => hw.visit id) n id ?_
  exact ⟨List.nodup_nil, fun name => by simp⟩

/-! ### How far a walk has come -/

/-- A walk from `start` has come so far, with the ids of `stack` visited and not yet left: all that
was seen is within the limit, and from what was left again the walk has gone on wherever a reference
leads, unless it is late. -/
structure Explored (st : Store) (limit start : Nat) (stack : List Nat) (w : Walk) : Prop where
  seen : ∀ b ∈ stack, b ∈ w.seen
  reached : ∀ b ∈ w.seen, ∃ p, st.Chain start b p ∧ p.length ≤ limit
  left : ∀ b ∈ w.seen, b ∉ stack → ¬st.Late limit start b → ∀ c, st.Leads b c → c ∈ w.seen

variable {stack : List Nat}

/-- Before a walk begins there is nothing to explore. -/
theorem explored_empty : st.Explored limit start [] {} where
  seen := by simp
  reached := by simp
  left := by simp

/-- A new id is visited at the end of the chain of open ones. -/
theorem Explored.visit (h : st.Explored limit start stack w) (hchain : st.Chain start id stack)
    (hlimit : stack.length ≤ limit) : st.Explored limit start (id :: stack) (st.visit id w) := by
  constructor
  · intro b hb
    rw [seen_visit]
    obtain rfl | hb := List.mem_cons.1 hb
    · exact List.mem_cons_self
    · exact List.mem_cons_of_mem id (h.seen b hb)
  · intro b hb
    rw [seen_visit] at hb
    obtain rfl | hb := List.mem_cons.1 hb
    · exact ⟨stack, hchain, hlimit⟩
    · exact h.reached b hb
  · intro b hb hopen hlate c hc
    rw [seen_visit] at hb ⊢
    rw [List.mem_cons, not_or] at hopen
    obtain rfl | hb := List.mem_cons.1 hb
    · exact absurd rfl hopen.1
    · exact List.mem_cons_of_mem id (h.left b hb hopen.2 hlate c hc)

/-- An id is left once the walk has gone on from it. -/
theorem Explored.leave (h : st.Explored limit start (id :: stack) w)
    (hid : ¬st.Late limit start id → ∀ c, st.Leads id c → c ∈ w.seen) :
    st.Explored limit start stack w := by
  refine ⟨fun b hb => h.seen b (List.mem_cons_of_mem id hb), h.reached, ?_⟩
  intro b hb hopen hlate c hc
  by_cases hbid : b = id
  · subst hbid
    exact hid hlate c hc
  · exact h.left b hb (by simp [hbid, hopen]) hlate c hc

/-- **A walk from the end of the chain of open ids** explores what can be reached from there. -/
theorem Explored.walk (h : st.Explored limit start stack w) (hchain : st.Chain start id stack)
    (hnodup : stack.Nodup) (hlength : stack.length + n = limit + 1) :
    st.Explored limit start stack (st.walk n id w) := by
  -- the induction is on the depth that is left; with each reference the chain grows by one
  induction n generalizing id w stack with
  | zero => exact h
  | succ n ih =>
    by_cases hseen : id ∈ w.seen
    · rwa [walk_of_mem hseen]
    have hopen : (id :: stack).Nodup :=
      List.nodup_cons.2 ⟨fun hmem => hseen (h.seen id hmem), hnodup⟩
    rw [walk_of_not_mem hseen]
    have hgone : st.Explored limit start (id :: stack)
        ((st.children id).foldl (fun w child => st.walk n child w) (st.visit id w)) := by
      refine List.foldlRecOn _ _ (h.visit hchain (by omega)) ?_
      intro w hw child hchild
      refine ih hw (hchain.snoc (mem_children.1 hchild)) hopen ?_
      rw [List.length_cons]
      omega
    refine hgone.leave ?_
    intro hlate c hc
    cases n with
    | zero =>
      -- at the limit the walk does not go on
      exact absurd ⟨stack, hchain, hopen, by omega⟩ hlate
    | succ n => exact mem_seen_foldl_walk (mem_children.2 hc) n _

/-- When nothing is open any more, a chain without late records ends at something seen. -/
theorem Explored.mem_of_chain {b : Nat} {p : List Nat} (h : st.Explored limit start [] w)
    (hstart : start ∈ w.seen) (hp : st.Chain start b p)
    (hlate : ∀ c ∈ p, ¬st.Late limit start c) : b ∈ w.seen := by
  induction hp with
  | start => exact hstart
  | @snoc a b p hp hlead ih =>
    have ha : a ∈ w.seen := ih fun c hc => hlate c (List.mem_cons_of_mem a hc)
    exact h.left a ha List.not_mem_nil (hlate a List.mem_cons_self) b hlead

/-! ### The names found -/

/-- **The names of materials found from a record.** No name is found twice. Each is borne by a
record at the end of a chain of no more references than the limit allows. And the name at the end of
a chain is found if no record before the last is late, so that the names found are exactly those
within reach wherever nothing is late that leads on. -/
theorem materialNames_of_chains (st : Store) (start : Nat) :
    (st.materialNames start).Nodup ∧
      (∀ name ∈ st.materialNames start,
        ∃ b p, st.Chain start b p ∧ p.length ≤ maxLinkDepth ∧ st.Names b name) ∧
      ∀ b p name, st.Chain start b p → (∀ c ∈ p, ¬st.Late maxLinkDepth start c) →
        st.Names b name → name ∈ st.materialNames start := by
  have hnoted : st.Noted (st.walk (maxLinkDepth + 1) start {}) := noted_walk st _ start
  have hexplored : st.Explored maxLinkDepth start [] (st.walk (maxLinkDepth + 1) start {}) :=
    explored_empty.walk .start List.nodup_nil (by simp)
  refine ⟨hnoted.nodup, ?_, ?_⟩
  · intro name hname
    obtain ⟨b, hb, hnames⟩ := (hnoted.mem_names name).1 hname
    obtain ⟨p, hp, hlength⟩ := hexplored.reached b hb
    exact ⟨b, p, hp, hlength, hnames⟩
  · intro b p name hp hlate hnames
    have hb := hexplored.mem_of_chain (mem_seen_walk _ start {}) hp hlate
    exact (hnoted.mem_names name).2 ⟨b, hb, hnames⟩

/-- Lists of materials, each within the one before, and a material within the last one. The first
list also refers to the last one itself, behind the detour. -/
def detourRecords : List Record :=
  [⟨1, "IFCMATERIALLIST", "(#2,#7)".toList⟩, ⟨2, "IFCMATERIALLIST", "(#3)".toList⟩,
    ⟨3, "IFCMATERIALLIST", "(#4)".toList⟩, ⟨4, "IFCMATERIALLIST", "(#5)".toList⟩,
    ⟨5, "IFCMATERIALLIST", "(#6)".toList⟩, ⟨6, "IFCMATERIALLIST", "(#7)".toList⟩,
    ⟨7, "IFCMATERIALLIST", "(#8)".toList⟩, ⟨8, "IFCMATERIAL", "'Steel'".toList⟩]

/-- The store of these records. -/
def detour : Store := .ofRecords detourRecords

theorem find?_detour (id : Nat) : detour.find? id = lastWith detourRecords id := by
  have hfind := (indexed_foldl_push detourRecords indexed_empty).find id
  rwa [list_foldl_push] at hfind

/-- In the detour each record from 2 to 7 leads to the one behind it. -/
theorem children_detour : detour.children 1 = [2, 7] ∧ detour.children 8 = [] ∧
    ∀ id ∈ [2, 3, 4, 5, 6, 7], detour.children id = [id + 1] := by
  unfold children
  simp only [find?_detour]
  decide

/-- At the end of the detour there is a material. -/
theorem names_detour : detour.Names 8 "Steel" := by
  refine ⟨⟨8, "IFCMATERIAL", "'Steel'".toList⟩, ?_, by decide +kernel⟩
  rw [find?_detour]
  decide

/-- From the second list on there is one way only. -/
theorem eq_of_chain_detour {b : Nat} {p : List Nat} (h : detour.Chain 2 b p) :
    b = 2 + p.length ∧ b ≤ 8 := by
  obtain ⟨-, hmaterial, hinner⟩ := children_detour
  induction h with
  | start => decide
  | @snoc a b p hp hlead ih =>
    obtain ⟨ha, hle⟩ := ih
    have hb : b ∈ detour.children a := mem_children.2 hlead
    have hne : a ≠ 8 := by
      rintro rfl
      rw [hmaterial] at hb
      cases hb
    have hmem : a ∈ [2, 3, 4, 5, 6, 7] := by
      simp only [List.mem_cons, List.not_mem_nil, or_false]
      omega
    rw [hinner a hmem, List.mem_singleton] at hb
    rw [List.length_cons]
    omega

/-- From the second list the material is as far away as the limit allows, and it is found. -/
theorem materialNames_of_chains_detour :
    detour.Chain 2 8 [7, 6, 5, 4, 3, 2] ∧
      (∀ c ∈ [7, 6, 5, 4, 3, 2], ¬detour.Late maxLinkDepth 2 c) ∧ detour.Names 8 "Steel" ∧
      "Steel" ∈ detour.materialNames 2 := by
  obtain ⟨-, -, hinner⟩ := children_detour
  have hleads : ∀ id ∈ [2, 3, 4, 5, 6, 7], detour.Leads id (id + 1) := by
    intro id hid
    rw [← mem_children, hinner id hid]
    exact List.mem_singleton_self _
  have hchain : detour.Chain 2 8 [7, 6, 5, 4, 3, 2] :=
    (((((Chain.start.snoc (hleads 2 (by decide))).snoc (hleads 3 (by decide))).snoc
      (hleads 4 (by decide))).snoc (hleads 5 (by decide))).snoc (hleads 6 (by decide))).snoc
      (hleads 7 (by decide))
  have hlate : ∀ c ∈ [7, 6, 5, 4, 3, 2], ¬detour.Late maxLinkDepth 2 c := by
    rintro c hc ⟨p, hp, -, hlength⟩
    have hc8 : c = 8 := by rw [(eq_of_chain_detour hp).1, hlength, maxLinkDepth]
    subst hc8
    exact absurd hc (by decide)
  obtain ⟨-, -, hfound⟩ := materialNames_of_chains detour 2
  exact ⟨hchain, hlate, names_detour, hfound 8 _ "Steel" hchain hlate names_detour⟩

/-- **A material two references away is missed.** From the first list the last one is first met at
the end of the detour, where it is late. -/
theorem exists_missed_material :
    (∃ p, detour.Chain 1 8 p ∧ p.length ≤ maxLinkDepth) ∧ detour.Names 8 "Steel" ∧
      "Steel" ∉ detour.materialNames 1 := by
  obtain ⟨houter, -, hinner⟩ := children_detour
  refine ⟨⟨[7, 1], ?_, by decide⟩, names_detour, ?_⟩
  · have hfirst : detour.Leads 1 7 := mem_children.1 (by simp [houter])
    have hsecond : detour.Leads 7 8 := mem_children.1 (by simp [hinner])
    exact (Chain.start.snoc hfirst).snoc hsecond
  · have hseen : (detour.walk (maxLinkDepth + 1) 1 {}).seen = [7, 6, 5, 4, 3, 2, 1] := by
      simp [maxLinkDepth, walk_of_not_mem, walk_of_mem, walk_zero, houter, hinner]
    have hlists : ∀ id ∈ [7, 6, 5, 4, 3, 2, 1], ∀ r ∈ lastWith detourRecords id,
        namesMaterial r.type = false := by decide
    intro hmem
    obtain ⟨b, hb, r, hr, hnames, -⟩ := ((noted_walk _ _ 1).mem_names "Steel").1 hmem
    rw [hseen] at hb
    rw [find?_detour] at hr
    rw [hlists b hb r hr] at hnames
    cases hnames

end BimAudit.Ifc.Store
