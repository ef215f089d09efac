import BimAudit.Proofs.RecordTexts
import BimAudit.Proofs.ScansByPlace
import Mathlib.Data.List.TakeWhile

/-!
# Records and values by their places

A record is cut at its first equals sign and its first parenthesis, a value is told by its ends, and
what is inside a list or a typed value is cut out and read again. Together with the readers of
parameter texts this is all that the reading of a data line does by places.

* `record?`, `shape`, `read`: records, shapes and values by places.
* `record?_eq`, `shape_eq`, `read_eq`: **they never fail**, and read what `Record.read?`, `Shape.of`
  and `Value.read` do.
* `readings_by_place`: **no reader fails on any text** of less than 2 ^ 31 bytes, well formed or
  not.
-/

namespace BimAudit.Step.ByPlace

open Text

variable {s : List Char} {c : Char}

/-! ### First characters -/

/-- The place of the first of the given characters. -/
def find? (c : Char) (s : List Char) : Option Nat :=
  if c ∈ s then some (byteSize (s.takeWhile (· ≠ c))) else none

theorem find?_eq_none (h : c ∉ s) : find? c s = none := if_neg h

theorem find?_append {a : List Char} (h : c ∉ a) (b : List Char) :
    find? c (a ++ c :: b) = some (byteSize a) := by
  unfold find?
  rw [if_pos (List.mem_append_right a List.mem_cons_self), takeWhile_ne_append h]

/-- What is behind a character. -/
theorem slice_behind (hc : IsAscii c) (a b : List Char) :
    slice (a ++ c :: b) (byteSize a + 1) (byteSize (a ++ c :: b)) = .ok b := by
  have hslice := slice_rest (a ++ [c]) b
  rwa [byteSize_append_of_isAscii hc, List.append_assoc] at hslice

/-! ### Shapes -/

/-- The text from a place on, without its last byte. -/
def inside (s : List Char) (i : Nat) : Except Misstep (List Char) := do
  let stop ← minus (byteSize s) 1
  slice s i stop

/-- The text between two ends, if these are as given and there are at least so many bytes. -/
def enclosed? (least : Nat) (first last : Char) (s : List Char) :
    Except Misstep (Option (List Char)) := do
  if least ≤ byteSize s ∧ s.head? = some first ∧ s.getLast? = some last then
    return some (← inside s 1)
  else return none

/-- The name of an enumeration. -/
def enum? (s : List Char) : Except Misstep (Option (List Char)) := do
  return (← enclosed? 2 '.' '.' s).filter (·.all isWordChar)

/-- A typed value, split at its first parenthesis. -/
def typed? (s : List Char) : Except Misstep (Option (List Char × List Char)) := do
  match find? '(' s with
  | none => return none
  | some i =>
    let type ← slice s 0 i
    if s.getLast? = some ')' ∧ type ≠ [] ∧ type.all isWordChar then
      return some (type, ← inside s (← plus i 1))
    else return none

/-- The shape of a parameter. For a list the number of bytes is not looked at. -/
def shape (s : List Char) : Except Misstep Shape := do
  if s = [] ∨ s = ['$'] then return .null
  else if s = ['*'] then return .derived
  else match reference? s with
  | some id => return .reference id
  | none =>
  match ← enclosed? 2 '\'' '\'' s with
  | some body => return .string body
  | none =>
  match ← enum? s with
  | some body => return .enum body
  | none =>
  match ← enclosed? 0 '(' ')' s with
  | some body => return .list body
  | none =>
  if isNumeric s then return .number
  else match ← typed? s with
  | some (type, body) => return .typed type body
  | none => return .bare

/-- What lies between two characters is the text without its ends. -/
theorem between?_eq_some_iff {a b : Char} {body : List Char} :
    between? a b s = some body ↔ s = a :: (body ++ [b]) := by
  constructor
  · intro h
    unfold between? at h
    split at h
    · cases h
    · cases h
    · split at h
      · next hends =>
        cases h
        rw [hends.1, List.dropLast_append_getLast? _ (Option.mem_def.2 hends.2)]
      · cases h
  · rintro rfl
    exact between?_eq_some a b body

/-- What is between two ends of one byte each. -/
theorem inside_eq {a b : Char} (ha : IsAscii a) (hb : IsAscii b) (front body : List Char) :
    inside (front ++ a :: (body ++ [b])) (byteSize front + 1) = .ok body := by
  have hsplit : front ++ a :: (body ++ [b]) = (front ++ [a]) ++ body ++ [b] := by simp
  unfold inside
  rw [hsplit, byteSize_append_of_isAscii hb, minus_eq (Nat.le_add_left _ _), ok_bind,
    Nat.add_sub_cancel, ← byteSize_append_of_isAscii ha]
  exact slice_append (front ++ [a]) body [b]

/-- **Two ends do not overlap**, if they differ or at least two bytes are asked for. -/
theorem enclosed?_eq {least : Nat} {a b : Char} (ha : IsAscii a) (hb : IsAscii b)
    (hleast : least ≤ 2) (hends : least = 2 ∨ a ≠ b) (s : List Char) :
    enclosed? least a b s = .ok (between? a b s) := by
  unfold enclosed?
  cases hbetween : between? a b s with
  | some body =>
    obtain rfl := between?_eq_some_iff.1 hbetween
    have hsize : least ≤ byteSize (a :: (body ++ [b])) := by
      rw [byteSize_cons, byteSize_append_of_isAscii hb, utf8Size_of_isAscii ha]
      omega
    have hlast : (a :: (body ++ [b])).getLast? = some b := List.getLast?_concat (l := a :: body)
    have hinside : inside (a :: (body ++ [b])) 1 = .ok body := inside_eq ha hb [] body
    rw [if_pos ⟨hsize, rfl, hlast⟩, hinside, ok_bind]
    rfl
  | none =>
    rw [if_neg]
    · rfl
    rintro ⟨hsize, hfirst, hlast⟩
    obtain ⟨t, rfl⟩ := List.head?_eq_some_iff.1 hfirst
    rcases List.eq_nil_or_concat t with rfl | ⟨body, d, rfl⟩
    · -- a single character is no two ends
      cases hlast
      rw [byteSize_cons, utf8Size_of_isAscii ha] at hsize
      rcases hends with rfl | hne
      · exact absurd hsize (by decide)
      · exact hne rfl
    · rw [List.concat_eq_append] at hlast hbetween
      rw [← List.cons_append, List.getLast?_concat, Option.some_inj] at hlast
      rw [hlast, between?_eq_some_iff.2 rfl] at hbetween
      cases hbetween

/-- **An enumeration by places** is the text between its points, if it is a word. -/
theorem enum?_eq (s : List Char) :
    enum? s = .ok ((between? '.' '.' s).filter (·.all isWordChar)) := by
  unfold enum?
  rw [enclosed?_eq (by decide) (by decide) (by decide) (.inl rfl)]
  rfl

/-- **A typed value by places** is the same as by characters. -/
theorem typed?_eq (hsize : byteSize s < 2 ^ 63) : typed? s = .ok (Step.typed? s) := by
  unfold typed? Step.typed?
  by_cases hmem : '(' ∈ s
  · obtain ⟨type, t, rfl, htype⟩ := List.eq_append_cons_of_mem hmem
    have hplus : byteSize type + 1 < 2 ^ 64 := by
      rw [byteSize_append] at hsize
      omega
    rw [find?_append htype, takeWhile_ne_append htype, dropWhile_ne_append htype]
    simp only
    rw [slice_front, ok_bind, plus_eq hplus, ok_bind]
    cases hbetween : between? '(' ')' ('(' :: t) with
    | some body =>
      rw [between?_eq_some_iff.1 hbetween, inside_eq (by decide) (by decide)]
      have hlast : (type ++ '(' :: (body ++ [')'])).getLast? = some ')' := by
        rw [← List.cons_append, ← List.append_assoc, List.getLast?_concat]
      simp only [hlast, true_and, ok_bind, Option.bind_some, pure_eq_ok]
      split <;> rfl
    | none =>
      rw [if_neg]
      · rfl
      rintro ⟨hlast, -⟩
      have ht := getLast?_of_append_cons hlast (by decide)
      obtain ⟨body, rfl⟩ := List.getLast?_eq_some_iff.1 ht
      rw [between?_eq_some_iff.2 rfl] at hbetween
      cases hbetween
  · have hnone : s.dropWhile (· ≠ '(') = [] := by
      rw [List.dropWhile_eq_nil_iff]
      exact fun c hc => decide_eq_true fun heq => hmem (heq ▸ hc)
    rw [find?_eq_none hmem, hnone]
    rfl

/-- **Telling a shape by places never fails.** -/
theorem shape_eq (hsize : byteSize s < 2 ^ 63) : shape s = .ok (Shape.of s) := by
  unfold shape Shape.of
  rw [enclosed?_eq (by decide) (by decide) (by decide) (.inl rfl), enum?_eq,
    enclosed?_eq (by decide) (by decide) (by decide) (.inr (by decide)), typed?_eq hsize]
  simp only [ok_bind, pure_eq_ok]
  split
  · rfl
  split
  · rfl
  cases reference? s with
  | some id => rfl
  | none =>
  cases between? '\'' '\'' s with
  | some body => rfl
  | none =>
  cases (between? '.' '.' s).filter (·.all isWordChar) with
  | some body => rfl
  | none =>
  cases between? '(' ')' s with
  | some body => rfl
  | none =>
  simp only
  split
  · rfl
  cases Step.typed? s <;> rfl

/-! ### Values -/

mutual

/-- The value of one parameter, read by places. What is inside is only read if it is shorter. -/
def read (s : List Char) : Except Misstep Value := do
  match ← shape (trim s) with
  | .null => return .null
  | .derived => return .derived
  | .reference id => return .reference id
  | .string body => return .string (String.ofList (← decode body))
  | .enum body => return .enum (String.ofList body)
  | .list body =>
    if body.length < s.length then return .list (← readAll body) else throw .standstill
  | .number => return .number (String.ofList (trim s))
  | .typed type body =>
    if body.length < s.length then return .typed (upperString type) (← read body)
    else throw .standstill
  | .bare => return .string (String.ofList (trim s))
termination_by 2 * s.length

/-- The values of a parameter text, read by places. -/
def readAll (s : List Char) : Except Misstep (List Value) := do
  (← splitParameters s).mapM fun p =>
    if p.length ≤ s.length then read p else throw .standstill
termination_by 2 * s.length + 1

end

/-- Every character that is left out has at least one byte. -/
theorem byteSize_add_length_le_of_sublist {t : List Char} (h : t.Sublist s) :
    byteSize t + s.length ≤ byteSize s + t.length := by
  induction h with
  | slnil => exact Nat.le_refl _
  | cons c _ ih =>
    have hpos := c.utf8Size_pos
    rw [byteSize_cons, List.length_cons]
    omega
  | cons_cons c _ ih =>
    rw [byteSize_cons, byteSize_cons, List.length_cons, List.length_cons]
    omega

/-- Some of the characters have some of the bytes. -/
theorem byteSize_le_of_sublist {t : List Char} (h : t.Sublist s) : byteSize t ≤ byteSize s := by
  have hbytes := byteSize_add_length_le_of_sublist h
  have hlength := h.length_le
  omega

theorem trim_sublist (s : List Char) : (trim s).Sublist s := by
  have hend := List.dropWhile_sublist isBlank (l := (trimStart s).reverse)
  rw [List.sublist_reverse_iff] at hend
  exact hend.trans (List.dropWhile_sublist isBlank)

theorem pushFront_sublist {ps : List (List Char)} {t : List Char} (h : ps.flatten.Sublist t) :
    (pushFront c ps).flatten.Sublist (c :: t) := by
  cases ps <;> exact h.cons_cons c

/-- The pieces are parts of the text. -/
theorem pieces_sublist (n : Nesting) (s : List Char) : (pieces n s).flatten.Sublist s := by
  induction s generalizing n with
  | nil => exact List.Sublist.refl []
  | cons c r ih =>
    rw [pieces]
    split
    · exact (ih n).cons c
    · exact pushFront_sublist (ih _)

/-- Each parameter is a part of the text. -/
theorem sublist_of_mem_splitParameters {q : List Char} (h : q ∈ Step.splitParameters s) :
    q.Sublist s := by
  have hmem : q ∈ (pieces {} s).map trim := by
    unfold Step.splitParameters at h
    split at h
    · cases h
    · exact h
  obtain ⟨piece, hpiece, rfl⟩ := List.mem_map.1 hmem
  exact (trim_sublist piece).trans
    ((List.sublist_flatten_of_mem hpiece).trans (pieces_sublist {} s))

/-- What a shape holds to be read is part of this text. -/
def IsWithin (s : List Char) : Shape → Prop
  | .string body | .list body | .typed _ body => body.Sublist s
  | _ => True

/-- What lies between two characters is a part of the text. -/
theorem sublist_of_between? {a b : Char} {body : List Char} (h : between? a b s = some body) :
    body.Sublist s := by
  rw [between?_eq_some_iff.1 h]
  exact (List.sublist_append_left body [b]).cons a

/-- What a typed value holds is a part of the text. -/
theorem sublist_of_typed? {type body : List Char} (h : Step.typed? s = some (type, body)) :
    body.Sublist s := by
  unfold Step.typed? at h
  obtain ⟨b, hbetween, hif⟩ := Option.bind_eq_some_iff.1 h
  split at hif
  · cases hif
    exact (sublist_of_between? hbetween).trans (List.dropWhile_sublist _)
  · cases hif

/-- **Each shape holds parts of the text only**, so places in them fit their words too. -/
theorem isWithin_shape (s : List Char) : IsWithin s (Shape.of s) := by
  unfold Shape.of
  split
  · trivial
  split
  · trivial
  split
  · trivial
  split
  · next hstring => exact sublist_of_between? hstring
  split
  · trivial
  split
  · next hlist => exact sublist_of_between? hlist
  split
  · trivial
  split
  · next htyped => exact sublist_of_typed? htyped
  · trivial

/-- If every call gives a value, the values are those of a map. -/
theorem mapM_eq_pure {m : Type → Type} [Monad m] [LawfulMonad m] {α β : Type} {f : α → m β}
    {g : α → β} {as : List α} (h : ∀ a ∈ as, f a = pure (g a)) :
    as.mapM f = pure (as.map g) := by
  induction as with
  | nil => exact List.mapM_nil
  | cons a as ih =>
    rw [List.mapM_cons, h a List.mem_cons_self, pure_bind,
      ih fun b hb => h b (List.mem_cons_of_mem a hb), pure_bind, List.map_cons]

/-- A parameter text is read if its parameters are. -/
theorem readAll_of_read (hsize : byteSize s < 2 ^ 31)
    (h : ∀ p, p.length ≤ s.length → byteSize p < 2 ^ 31 → read p = .ok (Value.read p)) :
    readAll s = .ok (Value.readAll s) := by
  rw [readAll, splitParameters_eq hsize, ok_bind, Value.readAll_eq_map]
  refine mapM_eq_pure fun p hp => ?_
  have hsublist := sublist_of_mem_splitParameters hp
  rw [if_pos hsublist.length_le]
  exact h p hsublist.length_le (Nat.lt_of_le_of_lt (byteSize_le_of_sublist hsublist) hsize)

/-- **Reading a value by places never fails.** -/
theorem read_eq (hsize : byteSize s < 2 ^ 31) : read s = .ok (Value.read s) := by
  induction hn : s.length using Nat.strongRecOn generalizing s with
  | ind n ih =>
    have htrim : byteSize (trim s) < 2 ^ 31 :=
      Nat.lt_of_le_of_lt (byteSize_le_of_sublist (trim_sublist s)) hsize
    have hwithin := isWithin_shape (trim s)
    rw [read, shape_eq (by omega), ok_bind, read_eq_value]
    cases hshape : Shape.of (trim s) with
    | string body =>
      rw [hshape] at hwithin
      have hbody := byteSize_le_of_sublist hwithin
      simp only [decode_eq (show byteSize body < 2 ^ 63 by omega), ok_bind]
      rfl
    | list body =>
      rw [hshape] at hwithin
      have hbody := byteSize_le_of_sublist hwithin
      have hlength := length_of_shape_list hshape
      have hshorter : body.length < s.length := by
        have := length_trim_le s
        omega
      have hread : readAll body = .ok (Value.readAll body) :=
        readAll_of_read (by omega) fun p hp hsize => ih p.length (by omega) hsize rfl
      simp only [if_pos hshorter, hread, ok_bind]
      rfl
    | typed type body =>
      rw [hshape] at hwithin
      have hbody := byteSize_le_of_sublist hwithin
      have hlength := length_of_shape_typed hshape
      have hshorter : body.length < s.length := by
        have := length_trim_le s
        omega
      have hread : read body = .ok (Value.read body) := ih body.length (by omega) (by omega) rfl
      simp only [if_pos hshorter, hread, ok_bind]
      rfl
    | _ => rfl

/-! ### Records -/

/-- Reads what is behind the equals sign of a record by places. -/
def content? (id : Nat) (r : List Char) : Except Misstep (Option Record) := do
  match find? '(' r with
  | none => return none
  | some i =>
    let type ← slice r 0 i
    if type ≠ [] ∧ type.all isWordChar then
      let body ← slice r (← plus i 1) (byteSize r)
      return (closeBody? body).map fun parameters => ⟨id, upperString type, parameters⟩
    else return none

/-- Reads a data record by places. -/
def record? (line : List Char) : Except Misstep (Option Record) := do
  match trim line with
  | '#' :: r =>
    match find? '=' r with
    | none => return none
    | some i =>
      match wordDigits? (trim (← slice r 0 i)) with
      | none => return none
      | some id => content? id (trimStart (← slice r (← plus i 1) (byteSize r)))
  | _ => return none

/-- The next place in a text fits its word. -/
theorem plus_byteSize {a b : List Char} (hsize : byteSize (a ++ b) < 2 ^ 63) :
    plus (byteSize a) 1 = .ok (byteSize a + 1) := by
  rw [byteSize_append] at hsize
  exact plus_eq (by omega)

/-- **The content of a record by places** is the same as by characters. -/
theorem content?_eq {r : List Char} (hsize : byteSize r < 2 ^ 63) (id : Nat) :
    content? id r = .ok (do
      let (type, body) ← splitAt? '(' r
      if type ≠ [] ∧ type.all isWordChar then
        (closeBody? body).map fun parameters => ⟨id, upperString type, parameters⟩
      else none) := by
  unfold content?
  by_cases hmem : '(' ∈ r
  · obtain ⟨type, body, rfl, htype⟩ := List.eq_append_cons_of_mem hmem
    rw [find?_append htype, splitAt?_append htype]
    simp only [slice_front, ok_bind, plus_byteSize hsize, slice_behind (show IsAscii '(' by decide),
      Option.bind_eq_bind, Option.bind_some]
    split <;> rfl
  · rw [find?_eq_none hmem, splitAt?_eq_none_iff.2 hmem]
    rfl

theorem record?_of_ne (h : ∀ r, trim s ≠ '#' :: r) : record? s = .ok none := by
  unfold record?
  split
  · next r hr => exact (h r hr).elim
  · rfl

theorem read?_of_ne (h : ∀ r, trim s ≠ '#' :: r) : Record.read? s = none := by
  unfold Record.read?
  split
  · next r hr => exact (h r hr).elim
  · rfl

/-- **Reading a record by places never fails.** -/
theorem record?_eq (hsize : byteSize s < 2 ^ 63) : record? s = .ok (Record.read? s) := by
  by_cases hsign : ∃ r, trim s = '#' :: r
  · obtain ⟨r, hr⟩ := hsign
    have htrim := byteSize_le_of_sublist (trim_sublist s)
    rw [hr, byteSize_cons] at htrim
    unfold record? Record.read?
    rw [hr]
    simp only
    by_cases hmem : '=' ∈ r
    · obtain ⟨id, body, rfl, hid⟩ := List.eq_append_cons_of_mem hmem
      have hplus := plus_byteSize (show byteSize (id ++ '=' :: body) < 2 ^ 63 by omega)
      rw [find?_append hid, splitAt?_append hid]
      simp only [slice_front, ok_bind, hplus, slice_behind (show IsAscii '=' by decide),
        Option.bind_eq_bind, Option.bind_some]
      cases wordDigits? (trim id) with
      | none => rfl
      | some id =>
        refine content?_eq ?_ id
        have hstart := byteSize_le_of_sublist (List.dropWhile_sublist isBlank (l := body))
        rw [byteSize_append, byteSize_cons] at htrim
        exact Nat.lt_of_le_of_lt hstart (by omega)
    · rw [find?_eq_none hmem, splitAt?_eq_none_iff.2 hmem]
      rfl
  · have hne := not_exists.1 hsign
    rw [record?_of_ne hne, read?_of_ne hne]

/-! ### All readers -/

/-- **No reader of data lines fails on any text** of less than 2 ^ 31 bytes. Every place that is
looked at is one of the text, every part that is cut out begins and ends between characters and does
not end before it begins, and no depth and no place leaves its word; and what is read is what the
readers of characters read. -/
theorem readings_by_place (s : String) (h : s.utf8ByteSize < 2 ^ 31) :
    record? s.toList = .ok (Record.read? s.toList) ∧
    splitParameters s.toList = .ok (Step.splitParameters s.toList) ∧
    read s.toList = .ok (Value.read s.toList) ∧
    (∀ n, nextLiterals s.toList n 0 = .ok ((List.range n).map fun k => (literals s.toList)[k]?)) ∧
    referencesIn s.toList = .ok (Step.referencesIn s.toList) ∧
    decode s.toList = .ok (Step.decode s.toList) := by
  rw [← byteSize_toList] at h
  exact ⟨record?_eq (by omega), splitParameters_eq h, read_eq h,
    fun n => nextLiterals_eq (p := []) n h, referencesIn_eq h, decode_eq (by omega)⟩

/-- A record with characters of several bytes, a doubled apostrophe and a directive. -/
def umlautWall : String := "#7=IFCWALL('\u00c4''\\X2\\00DF\\X0\\',#12,(.T.,$));"

/-- A record with an umlaut is read by places like by characters. -/
theorem readings_by_place_umlautWall : umlautWall.utf8ByteSize < 2 ^ 31 ∧
    record? umlautWall.toList
      = .ok (some ⟨7, "IFCWALL", "'\u00c4''\\X2\\00DF\\X0\\',#12,(.T.,$)".toList⟩) ∧
    splitParameters umlautWall.toList = .ok [umlautWall.toList] ∧
    read umlautWall.toList = .ok (.string umlautWall) ∧
    nextLiterals umlautWall.toList 2 0 = .ok [some "\u00c4'\u00df".toList, none] ∧
    referencesIn umlautWall.toList = .ok [7, 12] ∧
    decode umlautWall.toList = .ok "#7=IFCWALL('\u00c4'\u00df',#12,(.T.,$));".toList := by
  have h : umlautWall.utf8ByteSize < 2 ^ 31 := by decide
  obtain ⟨hrecord, hsplit, hread, hnext, hreferences, hdecode⟩ := readings_by_place umlautWall h
  refine ⟨h, hrecord.trans ?_, hsplit.trans ?_, hread.trans ?_, (hnext 2).trans ?_,
    hreferences.trans ?_, hdecode.trans ?_⟩
  · exact congrArg Except.ok (by decide +kernel)
  · exact congrArg Except.ok (by decide +kernel)
  · have hshape : Shape.of (trim umlautWall.toList) = .bare := by decide +kernel
    have htext : String.ofList (trim umlautWall.toList) = umlautWall := by decide +kernel
    rw [read_eq_value, hshape, Shape.value, htext]
  · exact congrArg Except.ok (by decide +kernel)
  · exact congrArg Except.ok (by decide +kernel)
  · exact congrArg Except.ok (by decide +kernel)

end BimAudit.Step.ByPlace
