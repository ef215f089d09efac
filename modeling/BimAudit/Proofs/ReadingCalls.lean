import BimAudit.Proofs.ReadingByPlace
import Mathlib.Logic.Relation

/-!
# The calls that reading a value makes

Reading a value calls for more to be read: a list for the parameters between its parentheses, a
typed value for the value there, and a parameter text for the value of each of its parameters. A
list and a typed value leave out two parentheses, so what they call for is shorter. A parameter may
be as long as the text it is cut from, if it is the only one.

* `Call.calls`, `Call.combine`: what a call calls for, and what it makes of the answers. `Call.run`:
  the recursion itself, with a bound on the depth of calls in place of a reason why it ends.
* `Call.Reaches.of_value`, `Call.Reaches.of_parameters`: **the texts of all calls that are reached**
  from a call. `Call.run_of_height_le`: the recursion ends, with what the readers of values give.
* `total_pieces`: the pieces of a text and the commas between them are the whole text.
  `nodes_read_le`: a value has at most one node more than its text has characters.
* `reading_ends`: all of this for the bytes of a text.
-/

namespace BimAudit.Step

open Text (trim byteSize)

variable {s t : List Char}

/-! ### Calls -/

/-- A call of one of the two readers of values. -/
inductive Call where
  /-- For the value of one parameter. -/
  | value (s : List Char)
  /-- For the values of a parameter text. -/
  | parameters (s : List Char)
deriving DecidableEq, Repr

/-- What is called for inside a parameter of this shape. -/
def Shape.calls : Shape → List Call
  | .list body => [.parameters body]
  | .typed _ body => [.value body]
  | _ => []

/-- The value of a parameter of this shape, from the values inside. -/
def Shape.combine (s : List Char) (inside : List Value) : Shape → List Value
  | .null => [.null]
  | .derived => [.derived]
  | .reference id => [.reference id]
  | .string body => [.string (String.ofList (decode body))]
  | .enum body => [.enum (String.ofList body)]
  | .list _ => [.list inside]
  | .number => [.number (String.ofList s)]
  | .typed type _ => inside.map (.typed (upperString type))
  | .bare => [.string (String.ofList s)]

namespace Call

/-- The text that a call is given. -/
def text : Call → List Char
  | value s => s
  | parameters s => s

/-- The calls that a call makes, in order. -/
def calls : Call → List Call
  | value s => (Shape.of (trim s)).calls
  | parameters s => (splitParameters s).map value

/-- The answer to a call, from the answers to the calls that it makes. -/
def combine (answers : List (List Value)) : Call → List Value
  | value s => (Shape.of (trim s)).combine (trim s) answers.flatten
  | parameters _ => answers.flatten

/-- Makes a call with all that it calls for, at most so many calls deep. -/
def run : Nat → Call → Option (List Value)
  | 0, _ => none
  | depth + 1, c => (c.calls.mapM (run depth)).map fun answers => c.combine answers

/-- The call is made for the first one, by itself or by others that are made for it. -/
def Reaches : Call → Call → Prop := Relation.TransGen fun c d => d ∈ c.calls

/-- What the readers of values give. -/
def answer : Call → List Value
  | value s => [Value.read s]
  | parameters s => Value.readAll s

/-! ### Shorter texts -/

theorem byteSize_of_shape_calls {d : Call} (h : d ∈ (Shape.of s).calls) :
    byteSize d.text + 2 ≤ byteSize s := by
  have hwithin := ByPlace.isWithin_shape s
  cases hshape : Shape.of s with
  | list body =>
    rw [hshape] at h hwithin
    obtain rfl := List.mem_singleton.1 h
    have hlength := length_of_shape_list hshape
    have hbytes : byteSize body + s.length ≤ byteSize s + body.length :=
      ByPlace.byteSize_add_length_le_of_sublist hwithin
    show byteSize body + 2 ≤ byteSize s
    omega
  | typed type body =>
    rw [hshape] at h hwithin
    obtain rfl := List.mem_singleton.1 h
    have hlength := length_of_shape_typed hshape
    have hbytes : byteSize body + s.length ≤ byteSize s + body.length :=
      ByPlace.byteSize_add_length_le_of_sublist hwithin
    show byteSize body + 2 ≤ byteSize s
    omega
  | _ =>
    rw [hshape] at h
    cases h

/-- **What a value calls for is two bytes shorter**, the parentheses around it. -/
theorem byteSize_of_mem_calls_value {d : Call} (h : d ∈ (value s).calls) :
    byteSize d.text + 2 ≤ byteSize s := by
  have hbody := byteSize_of_shape_calls h
  have htrim := ByPlace.byteSize_le_of_sublist (ByPlace.trim_sublist s)
  omega

/-- What a parameter text calls for are values no longer than itself. -/
theorem byteSize_of_mem_calls_parameters {d : Call} (h : d ∈ (parameters s).calls) :
    ∃ p, d = value p ∧ byteSize p ≤ byteSize s := by
  obtain ⟨p, hp, rfl⟩ := List.mem_map.1 h
  exact ⟨p, rfl, ByPlace.byteSize_le_of_sublist (ByPlace.sublist_of_mem_splitParameters hp)⟩

theorem byteSize_of_mem_calls {c d : Call} (h : d ∈ c.calls) :
    byteSize d.text ≤ byteSize c.text := by
  cases c with
  | value s =>
    have hvalue := byteSize_of_mem_calls_value h
    show byteSize d.text ≤ byteSize s
    omega
  | parameters s =>
    obtain ⟨p, rfl, hp⟩ := byteSize_of_mem_calls_parameters h
    exact hp

theorem Reaches.byteSize_le {c d : Call} (h : Reaches c d) : byteSize d.text ≤ byteSize c.text := by
  induction h with
  | single hd => exact byteSize_of_mem_calls hd
  | tail _ hd ih => exact Nat.le_trans (byteSize_of_mem_calls hd) ih

/-- **Every call that is reached from a value is for a shorter text.** -/
theorem Reaches.of_value {d : Call} (h : Reaches (value s) d) : byteSize d.text < byteSize s := by
  obtain ⟨c, hc, hrest⟩ := Relation.TransGen.head'_iff.1 h
  have hfirst := byteSize_of_mem_calls_value hc
  rcases Relation.reflTransGen_iff_eq_or_transGen.1 hrest with rfl | hrest
  · omega
  · have hle := Reaches.byteSize_le hrest
    omega

/-- **So is every one that is reached from a parameter text**, its own parameters apart. -/
theorem Reaches.of_parameters {d : Call} (h : Reaches (parameters s) d) :
    (∃ p ∈ splitParameters s, d = value p ∧ byteSize p ≤ byteSize s) ∨
      byteSize d.text < byteSize s := by
  obtain ⟨c, hc, hrest⟩ := Relation.TransGen.head'_iff.1 h
  obtain ⟨p, hp, rfl⟩ := List.mem_map.1 hc
  have hle := byteSize_of_mem_calls hc
  rcases Relation.reflTransGen_iff_eq_or_transGen.1 hrest with rfl | hrest
  · exact .inl ⟨p, hp, rfl, hle⟩
  · exact .inr (Nat.lt_of_lt_of_le (Reaches.of_value hrest) hle)

/-- **A parameter text that is reached from another one is shorter.** -/
theorem Reaches.parameters_of_parameters (h : Reaches (parameters s) (parameters t)) :
    byteSize t < byteSize s := by
  rcases Reaches.of_parameters h with ⟨p, -, hp, -⟩ | hlt
  · cases hp
  · exact hlt

/-! ### The recursion ends -/

/-- How deep calls may go. A parameter text may come back as a value of the same length, so it
stands one above this value. -/
def height : Call → Nat
  | value s => byteSize s + 1
  | parameters s => byteSize s + 2

theorem height_lt_of_mem_calls {c d : Call} (h : d ∈ c.calls) : d.height < c.height := by
  cases c with
  | value s =>
    have hbytes := byteSize_of_mem_calls_value h
    have hheight : d.height ≤ byteSize d.text + 2 := by
      cases d with
      | value t => exact Nat.le_succ _
      | parameters t => exact Nat.le_refl _
    show d.height < byteSize s + 1
    omega
  | parameters s =>
    obtain ⟨p, rfl, hp⟩ := byteSize_of_mem_calls_parameters h
    exact Nat.succ_lt_succ (Nat.lt_succ_of_le hp)

/-- The readers of values answer a call by the answers to the calls that it makes. -/
theorem answer_eq (c : Call) : c.answer = c.combine (c.calls.map answer) := by
  cases c with
  | value s =>
    show [Value.read s] = (Shape.of (trim s)).combine (trim s)
      ((Shape.of (trim s)).calls.map answer).flatten
    rw [read_eq_value]
    cases Shape.of (trim s) <;> simp [Shape.value, Shape.combine, Shape.calls, answer]
  | parameters s =>
    show Value.readAll s = (((splitParameters s).map value).map answer).flatten
    rw [Value.readAll_eq_map, List.map_map, ← List.flatMap_def]
    exact List.map_eq_flatMap

/-- **The recursion ends**, with what the readers of values give, whenever the bound on its depth is
not below the height of the call. -/
theorem run_of_height_le {depth : Nat} {c : Call} (h : c.height ≤ depth) :
    c.run depth = some c.answer := by
  induction depth generalizing c with
  | zero => cases c <;> cases h
  | succ depth ih =>
    have hcalls : c.calls.mapM (run depth) = some (c.calls.map answer) := by
      refine ByPlace.mapM_eq_pure fun d hd => ih ?_
      have hheight := height_lt_of_mem_calls hd
      omega
    rw [run, hcalls, Option.map_some, ← answer_eq]

end Call

/-! ### Nodes -/

mutual

/-- The number of nodes of a value, as a tree. -/
def Value.nodes : Value → Nat
  | .list items => Value.nodesAll items + 1
  | .typed _ inner => inner.nodes + 1
  | _ => 1

/-- The number of nodes of several values. -/
def Value.nodesAll : List Value → Nat
  | [] => 0
  | v :: vs => v.nodes + Value.nodesAll vs

end

theorem Value.nodesAll_eq_total (vs : List Value) : Value.nodesAll vs = total Value.nodes vs := by
  induction vs with
  | nil => rfl
  | cons v vs ih => rw [Value.nodesAll, total_cons, ih]

theorem pieces_ne_nil (n : Nesting) (s : List Char) : pieces n s ≠ [] := by
  cases s with
  | nil => exact List.cons_ne_nil _ _
  | cons c r =>
    rw [pieces]
    split
    · exact List.cons_ne_nil _ _
    · cases pieces (n.next c) r <;> exact List.cons_ne_nil _ _

/-- **The pieces of a text and the commas between them are the whole text.** There is one comma less
than there are pieces. -/
theorem total_pieces (n : Nesting) (s : List Char) :
    total (fun p => p.length + 1) (pieces n s) = s.length + 1 := by
  induction s generalizing n with
  | nil => rfl
  | cons c r ih =>
    rw [pieces]
    split
    · rw [total_cons, ih, List.length_nil, List.length_cons, Nat.zero_add, Nat.add_comm]
    · have hpieces := ih (n.next c)
      obtain ⟨p, ps, hps⟩ := List.exists_cons_of_ne_nil (pieces_ne_nil (n.next c) r)
      rw [hps, total_cons] at hpieces
      rw [hps, pushFront, total_cons, List.length_cons, List.length_cons]
      omega

theorem total_splitParameters_le (s : List Char) :
    total (fun p => p.length + 1) (splitParameters s) ≤ s.length + 1 := by
  have htrim : total (fun p => p.length + 1) ((pieces {} s).map trim) ≤ s.length + 1 := by
    rw [total_map, ← total_pieces {} s]
    exact total_le_total fun p _ => Nat.succ_le_succ (Text.length_trim_le p)
  unfold splitParameters
  split
  · exact Nat.zero_le _
  · exact htrim

/-- The values of a parameter text have few nodes if each parameter has. -/
theorem nodesAll_readAll_le_of_read
    (h : ∀ p, p.length ≤ s.length → (Value.read p).nodes ≤ p.length + 1) :
    Value.nodesAll (Value.readAll s) ≤ s.length + 1 := by
  rw [Value.nodesAll_eq_total, Value.readAll_eq_map, total_map]
  refine Nat.le_trans (total_le_total fun p hp => ?_) (total_splitParameters_le s)
  exact h p (length_le_of_mem_splitParameters hp)

/-- **A value has at most one node more than its text has characters.** The two parentheses that a
list or a typed value leaves out pay for its own node. -/
theorem nodes_read_le (s : List Char) : (Value.read s).nodes ≤ s.length + 1 := by
  induction hn : s.length using Nat.strongRecOn generalizing s with
  | ind n ih =>
    have htrim := Text.length_trim_le s
    rw [read_eq_value]
    cases hshape : Shape.of (trim s) with
    | list body =>
      have hlength := length_of_shape_list hshape
      have hbody : Value.nodesAll (Value.readAll body) ≤ body.length + 1 :=
        nodesAll_readAll_le_of_read fun p hp => ih p.length (by omega) p rfl
      rw [Shape.value, Value.nodes]
      omega
    | typed type body =>
      have hlength := length_of_shape_typed hshape
      have hbody := ih body.length (by omega) body rfl
      rw [Shape.value, Value.nodes]
      omega
    | _ => exact Nat.succ_le_succ (Nat.zero_le _)

theorem nodesAll_readAll_le (s : List Char) :
    Value.nodesAll (Value.readAll s) ≤ s.length + 1 :=
  nodesAll_readAll_le_of_read fun p _ => nodes_read_le p

/-! ### Both readers -/

/-- **Reading a value ends, and gives a small tree.** A reader that is called again, directly or by
way of the other, while a call of it is open gets a text with fewer bytes. Indeed every call that is
made for the value of a text is for fewer bytes, and so is every one that is made for a parameter
text, but for its own parameters, which have no more. Hence calls go no deeper than the text has
bytes, and one or two more; their answer is what the readers of values give, and it has at most one
node more than the text has bytes. -/
theorem reading_ends (s : String) :
    (∀ d, (Call.value s.toList).Reaches d → byteSize d.text < s.utf8ByteSize) ∧
    (∀ t, (Call.parameters s.toList).Reaches (.parameters t) → byteSize t < s.utf8ByteSize) ∧
    (∀ d, (Call.parameters s.toList).Reaches d →
      (∃ p ∈ splitParameters s.toList, d = .value p ∧ byteSize p ≤ s.utf8ByteSize) ∨
        byteSize d.text < s.utf8ByteSize) ∧
    (Call.value s.toList).run (s.utf8ByteSize + 1) = some [Value.read s.toList] ∧
    (Call.parameters s.toList).run (s.utf8ByteSize + 2) = some (Value.readAll s.toList) ∧
    (Value.read s.toList).nodes ≤ s.utf8ByteSize + 1 ∧
    Value.nodesAll (Value.readAll s.toList) ≤ s.utf8ByteSize + 1 := by
  have hlength := ByPlace.length_le_byteSize s.toList
  rw [← Text.byteSize_toList]
  refine ⟨fun d => Call.Reaches.of_value, fun t => Call.Reaches.parameters_of_parameters,
    fun d => Call.Reaches.of_parameters, Call.run_of_height_le (Nat.le_refl _),
    Call.run_of_height_le (Nat.le_refl _), ?_, ?_⟩
  · exact Nat.le_trans (nodes_read_le _) (Nat.succ_le_succ hlength)
  · exact Nat.le_trans (nodesAll_readAll_le _) (Nat.succ_le_succ hlength)

/-- A list with a list and a typed value in it. -/
def nestedList : String := "((1),X(.T.))"

/-- Between the innermost parentheses stands one of twelve bytes. -/
theorem reading_ends_nestedList :
    (Call.value nestedList.toList).Reaches (.value ['1']) ∧
      byteSize ['1'] < nestedList.utf8ByteSize ∧
      Value.read nestedList.toList = .list [.list [.number "1"], .typed "X" (.enum "T")] ∧
      (Value.read nestedList.toList).nodes = 5 ∧ nestedList.utf8ByteSize = 12 := by
  obtain ⟨hvalue, -, -, hrun, -⟩ := reading_ends nestedList
  have hreach : (Call.value nestedList.toList).Reaches (.value ['1']) := by
    have houter : Call.parameters "(1),X(.T.)".toList ∈ (Call.value nestedList.toList).calls := by
      decide +kernel
    have hmember : Call.value "(1)".toList ∈ (Call.parameters "(1),X(.T.)".toList).calls := by
      decide +kernel
    have hinner : Call.parameters ['1'] ∈ (Call.value "(1)".toList).calls := by decide +kernel
    have hlast : Call.value ['1'] ∈ (Call.parameters ['1']).calls := by decide +kernel
    exact .head houter (.head hmember (.head hinner (.single hlast)))
  have hread : Value.read nestedList.toList
      = .list [.list [.number "1"], .typed "X" (.enum "T")] := by
    have heval : (Call.value nestedList.toList).run (nestedList.utf8ByteSize + 1)
        = some [.list [.list [.number "1"], .typed "X" (.enum "T")]] := by rfl
    rw [hrun] at heval
    exact (List.cons.inj (Option.some.inj heval)).1
  refine ⟨hreach, hvalue _ hreach, hread, ?_, by decide⟩
  rw [hread]
  rfl

end BimAudit.Step
