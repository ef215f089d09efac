import Mathlib.Data.List.Nodup
import Mathlib.Data.Set.List
import BimAudit.Export.SheetName
import BimAudit.Proofs.Numerals
import BimAudit.Proofs.TrimmedText

/-!
# Names of sheets are told apart

The search for a free name tries the full name, cut off, and then the numbers 2, 3 and so on. Lower
case may do what it likes with the letters in front, but it leaves a number alone, and so different
numbers give different names. Of the numbers that are tried there is one more than there are names
that can be taken, so the search comes to an end, unless the numbers run out before: they are signed
words of 32 bits. Such a number has ten digits at most, so there is always room for it in a name.

* `numbered_eq`: every number has room. `folded_withNumber_injective`: different numbers give
  different names in lower case.
* `Found`, `Exhausted`: how a search for a free name may end. `outcome_sheetName`: every search ends
  in one of these ways.
* `Allowed`: what a name may look like. `allowed_of_found`: what is found does.
* `named_sheetNames`: **the names of sheets are told apart, allowed and short enough**, and there is
  one for every sheet of fewer than `2 ^ 31 - 2`.
-/

namespace BimAudit.Unicode

/-! ### Lower case -/

/-- What comes behind in a text comes behind in its lower case. -/
theorem lowerFrom_append (before s t : List Char) :
    ∃ u, lowerFrom before (s ++ t) = u ++ lowerFrom (s.reverse ++ before) t := by
  induction s generalizing before with
  | nil => exact ⟨[], rfl⟩
  | cons c s ih =>
    obtain ⟨u, hu⟩ := ih (c :: before)
    rw [List.cons_append, lowerFrom, hu, ← List.append_assoc, List.reverse_cons,
      List.append_assoc s.reverse]
    exact ⟨_, rfl⟩

/-- A text without letters is its own lower case. -/
theorem lowerFrom_eq_self {s : List Char} (h : ∀ c ∈ s, c ≠ 'Σ' ∧ lowerChar c = [c])
    (before : List Char) : lowerFrom before s = s := by
  induction s generalizing before with
  | nil => rfl
  | cons c s ih =>
    obtain ⟨hsigma, hc⟩ := h c List.mem_cons_self
    rw [lowerFrom, if_neg hsigma, hc, ih fun a ha => h a (List.mem_cons_of_mem c ha)]
    rfl

theorem lowerChar_of_isDigit {c : Char} (h : Text.isDigit c = true) :
    c ≠ 'Σ' ∧ lowerChar c = [c] := by
  have hcode : 48 ≤ c.toNat ∧ c.toNat ≤ 57 := by
    simpa [Text.isDigit, Char.le_def, UInt32.le_iff_toNat_le] using h
  have hall : ∀ n : Fin 58, 48 ≤ n.val →
      Char.ofNat n ≠ 'Σ' ∧ lowerChar (Char.ofNat n) = [Char.ofNat n] := by decide
  have hc := hall ⟨c.toNat, by omega⟩ hcode.1
  rwa [Char.ofNat_toNat] at hc

end BimAudit.Unicode

namespace BimAudit.Export

/-! ### Numbered names -/

theorem numberText_eq (n : Nat) : numberText n = '~' :: Nat.toDigits 10 n := by
  unfold numberText
  rw [Nat.toString_eq_repr, Nat.toList_repr]

/-- A signed word of 32 bits has ten digits at most, and the mark comes before them. -/
theorem length_numberText_le {n : Nat} (h : n < numberLimit) : (numberText n).length ≤ 11 := by
  have hdigits : n < 10 ^ 10 := Nat.lt_trans h (by decide)
  have hlength := (Nat.length_toDigits_le_iff (b := 10) (k := 10) (by decide) (by decide)).2 hdigits
  rw [numberText_eq, List.length_cons]
  omega

/-- The name with a number at its end, and as much cut off as the number takes. -/
def withNumber (name : List Char) (n : Nat) : String :=
  String.ofList (name.take (maxNameLength - (numberText n).length) ++ numberText n)

/-- **Every number has room in a name.** -/
theorem numbered_eq (name : List Char) {n : Nat} (h : n < numberLimit) :
    numbered name n = .ok (withNumber name n) := by
  have hlength := length_numberText_le h
  unfold numbered maxNameLength
  exact if_pos (by omega)

/-- There is no mark among digits. -/
theorem not_mem_toDigits_mark (n : Nat) : '~' ∉ Nat.toDigits 10 n := by
  intro h
  have := Text.isDigit_of_mem_toDigits h
  revert this
  decide

/-- Lower case leaves the number of a name alone. -/
theorem folded_withNumber (name : List Char) (n : Nat) :
    ∃ u, (folded (withNumber name n)).toList = u ++ numberText n := by
  have hnumber : ∀ c ∈ numberText n, c ≠ 'Σ' ∧ Unicode.lowerChar c = [c] := by
    intro c hc
    rw [numberText_eq] at hc
    obtain rfl | hc := List.mem_cons.1 hc
    · decide
    · exact Unicode.lowerChar_of_isDigit (Text.isDigit_of_mem_toDigits hc)
  obtain ⟨u, hu⟩ := Unicode.lowerFrom_append []
    (name.take (maxNameLength - (numberText n).length)) (numberText n)
  refine ⟨u, ?_⟩
  rw [folded, Unicode.lower, withNumber, String.toList_ofList, String.toList_ofList, hu,
    Unicode.lowerFrom_eq_self hnumber]

/-- The digits of a number stand behind the last mark. -/
theorem takeWhile_reverse_numberText (u : List Char) (n : Nat) :
    (u ++ numberText n).reverse.takeWhile (· ≠ '~') = (Nat.toDigits 10 n).reverse := by
  have hmark : '~' ∉ (Nat.toDigits 10 n).reverse := by
    rw [List.mem_reverse]
    exact not_mem_toDigits_mark n
  rw [numberText_eq, List.reverse_append, List.reverse_cons, List.append_assoc,
    List.singleton_append, Text.takeWhile_ne_append hmark]

/-- **Different numbers give different names in lower case.** -/
theorem folded_withNumber_injective {name : List Char} {n m : Nat}
    (h : folded (withNumber name n) = folded (withNumber name m)) : n = m := by
  obtain ⟨u, hu⟩ := folded_withNumber name n
  obtain ⟨v, hv⟩ := folded_withNumber name m
  have hdigits : (Nat.toDigits 10 n).reverse = (Nat.toDigits 10 m).reverse := by
    rw [← takeWhile_reverse_numberText u n, ← takeWhile_reverse_numberText v m, ← hu, ← hv, h]
  have hvalue := congrArg (Nat.ofDigitChars 10 · 0) (List.reverse_inj.1 hdigits)
  simpa only [Nat.ofDigitChars_ten_toDigits] using hvalue

/-- A numbered name is never reserved. -/
theorem isFree_withNumber_iff (taken : List String) (name : List Char) (n : Nat) :
    isFree taken (withNumber name n) = true ↔ folded (withNumber name n) ∉ taken := by
  have hreserved : Text.equalIgnoringCase (withNumber name n) summaryName = false := by
    unfold Text.equalIgnoringCase
    rw [decide_eq_false_iff_not, withNumber, String.toList_ofList, numberText_eq]
    intro heq
    have hmark : '~' ∈ summaryName.toList.map Char.toLower := by
      rw [← heq, List.mem_map]
      exact ⟨'~', List.mem_append_right _ List.mem_cons_self, by decide⟩
    revert hmark
    decide
  simp [isFree, hreserved]

/-! ### The search for a free name -/

/-- The name that is tried after so many others. -/
def attempt (name : List Char) : Nat → String
  | 0 => String.ofList (name.take maxNameLength)
  | n + 1 => withNumber name (n + 2)

/-- The search for a free name ends after so many attempts that failed. The number behind the last
one still fits its word. -/
structure Found (taken : List String) (name : List Char) (n : Nat) : Prop where
  free : isFree taken (attempt name n) = true
  first : ∀ m < n, isFree taken (attempt name m) = false
  fits : n + 2 < numberLimit

/-- No name is free up to the last number. -/
def Exhausted (taken : List String) (name : List Char) : Prop :=
  ∀ n, n + 2 < numberLimit → isFree taken (attempt name n) = false

/-- **What the search comes to from some attempt on**: the first free name, or none if all are taken
up to the last number. The induction is on the numbers that are left. -/
theorem firstFree_eq (taken : List String) (name : List Char) {k : Nat}
    (hk : k + 2 < numberLimit) :
    (∃ n, k ≤ n ∧ n + 2 < numberLimit ∧ isFree taken (attempt name n) = true ∧
        (∀ m, k ≤ m → m < n → isFree taken (attempt name m) = false) ∧
        firstFree taken name (attempt name k) (k + 2) = .ok (attempt name n)) ∨
      (∀ n, k ≤ n → n + 2 < numberLimit → isFree taken (attempt name n) = false) ∧
        firstFree taken name (attempt name k) (k + 2) = .error .numbers := by
  generalize hleft : numberLimit - k = left
  induction left generalizing k with
  | zero => omega
  | succ left ih =>
    rw [firstFree]
    by_cases hfree : isFree taken (attempt name k) = true
    · exact .inl ⟨k, Nat.le_refl k, hk, hfree, fun m hm hlt => by omega, if_pos hfree⟩
    · have hnot : isFree taken (attempt name k) = false := Bool.eq_false_iff.2 hfree
      rw [if_neg hfree, numbered_eq name hk]
      simp only
      by_cases hnext : k + 2 + 1 < numberLimit
      · rw [if_pos hnext]
        rcases ih hnext (by omega) with ⟨n, hn, hfits, hfound, hfirst, heq⟩ | ⟨hnone, heq⟩
        · refine .inl ⟨n, by omega, hfits, hfound, fun m hm hlt => ?_, heq⟩
          rcases Nat.eq_or_lt_of_le hm with rfl | hm
          · exact hnot
          · exact hfirst m hm hlt
        · refine .inr ⟨fun n hn hfits => ?_, heq⟩
          rcases Nat.eq_or_lt_of_le hn with rfl | hn
          · exact hnot
          · exact hnone n hn hfits
      · rw [if_neg hnext]
        refine .inr ⟨fun n hn hfits => ?_, rfl⟩
        obtain rfl : n = k := by omega
        exact hnot

/-- There are more numbers to try than names that are taken. -/
theorem exists_isFree (taken : List String) (name : List Char) :
    ∃ n ≤ taken.length, isFree taken (withNumber name (n + 2)) = true := by
  by_contra hnone
  have htaken : ∀ n ≤ taken.length, folded (withNumber name (n + 2)) ∈ taken := by
    intro n hn
    by_contra hfree
    exact hnone ⟨n, hn, (isFree_withNumber_iff taken name (n + 2)).2 hfree⟩
  have hnodup : ((List.range (taken.length + 1)).map
      fun n => folded (withNumber name (n + 2))).Nodup := by
    refine List.nodup_range.map_on fun n _ m _ h => ?_
    have := folded_withNumber_injective h
    omega
  have hsubset : (List.range (taken.length + 1)).map
      (fun n => folded (withNumber name (n + 2))) ⊆ taken := by
    intro x hx
    obtain ⟨n, hn, rfl⟩ := List.mem_map.1 hx
    exact htaken n (Nat.le_of_lt_succ (List.mem_range.1 hn))
  have hle := hnodup.length_le_of_subset hsubset
  rw [List.length_map, List.length_range] at hle
  omega

/-- How the search for a free name may end: with the first free one, after one attempt for each name
that is taken and another one at most, or without any if almost as many names are taken as there are
numbers. -/
inductive Outcome (taken : List String) (name : List Char) : Except Shortage String → Prop where
  | found {n : Nat} (h : Found taken name n) (few : n ≤ taken.length + 1) :
    Outcome taken name (.ok (attempt name n))
  | exhausted (h : Exhausted taken name) (many : numberLimit ≤ taken.length + 3) :
    Outcome taken name (.error .numbers)

/-- **Every search for a free name ends.** -/
theorem outcome_sheetName (taken : List String) (model document : String) :
    Outcome taken (fullName model document) (sheetName taken model document) := by
  obtain ⟨k, hk, hfree⟩ := exists_isFree taken (fullName model document)
  unfold sheetName
  rcases firstFree_eq taken (fullName model document) (k := 0) (by decide) with
    ⟨n, -, hfits, hfound, hfirst, heq⟩ | ⟨hnone, heq⟩
  · have hle : n ≤ k + 1 := by
      refine Nat.le_of_not_lt fun hlt => ?_
      have hfalse : true = false := hfree.symm.trans (hfirst (k + 1) (Nat.zero_le _) hlt)
      cases hfalse
    have houtcome := Outcome.found ⟨hfound, fun m hm => hfirst m (Nat.zero_le m) hm, hfits⟩
      (show n ≤ taken.length + 1 by omega)
    rwa [← heq] at houtcome
  · have hmany : numberLimit ≤ taken.length + 3 := by
      refine Nat.le_of_not_lt fun hlt => ?_
      have hfalse : true = false := hfree.symm.trans (hnone (k + 1) (Nat.zero_le _) (by omega))
      cases hfalse
    have houtcome := Outcome.exhausted (fun n hn => hnone n (Nat.zero_le n) hn) hmany
    rwa [← heq] at houtcome

/-! ### The names of several sheets -/

/-- The names that are given. -/
def given (names : List (Except Shortage String)) : List String := names.filterMap (·.toOption)

/-- What is taken once some names have been given. -/
def takenBy (names : List (Except Shortage String)) (taken : List String) : List String :=
  (given names).reverse.map folded ++ taken

/-- A name that is given is taken from then on. -/
theorem takenBy_cons (x : Except Shortage String) (names : List (Except Shortage String))
    (taken : List String) :
    takenBy (x :: names) taken = takenBy names (x.toOption.toList.map folded ++ taken) := by
  unfold takenBy given
  cases x with
  | error e => rfl
  | ok name => simp [Except.toOption]

theorem length_takenBy_le (names : List (Except Shortage String)) (taken : List String) :
    (takenBy names taken).length ≤ names.length + taken.length := by
  have hle := List.length_filterMap_le (fun x : Except Shortage String => x.toOption) names
  unfold takenBy given
  rw [List.length_append, List.length_map, List.length_reverse]
  omega

/-- A name that is found has not been taken. -/
theorem folded_not_mem_of_found {taken : List String} {name : List Char} {n : Nat}
    (h : Found taken name n) : folded (attempt name n) ∉ taken := by
  have hfree := h.free
  unfold isFree at hfree
  rw [Bool.and_eq_true, Bool.not_eq_true', List.contains_eq_mem, decide_eq_false_iff_not] at hfree
  exact hfree.1

theorem length_sheetNames (pairs : List (String × String)) (taken : List String) :
    (sheetNames taken pairs).length = pairs.length := by
  induction pairs generalizing taken with
  | nil => rfl
  | cons p pairs ih => rw [sheetNames, List.length_cons, ih, List.length_cons]

/-- **Each name is searched for among those before it.** -/
theorem outcome_sheetNames (pairs : List (String × String)) (taken : List String) (k : Nat)
    (hk : k < pairs.length) : ∃ x, (sheetNames taken pairs)[k]? = some x ∧
      Outcome (takenBy ((sheetNames taken pairs).take k) taken)
        (fullName pairs[k].1 pairs[k].2) x := by
  induction pairs generalizing taken k with
  | nil => cases hk
  | cons p pairs ih =>
    cases k with
    | zero => exact ⟨_, rfl, outcome_sheetName taken p.1 p.2⟩
    | succ k =>
      -- the name of the first sheet moves from the names before to those that are taken
      obtain ⟨x, hx, houtcome⟩ := ih _ k (Nat.lt_of_succ_lt_succ hk)
      refine ⟨x, hx, ?_⟩
      rw [sheetNames, List.take_succ_cons, takenBy_cons]
      exact houtcome

/-- **The names of the sheets are different**, without regard to case. The induction is on the
pairs. -/
theorem nodup_sheetNames (pairs : List (String × String)) {taken : List String}
    (h : taken.Nodup) : (takenBy (sheetNames taken pairs) taken).Nodup := by
  induction pairs generalizing taken with
  | nil => exact h
  | cons p pairs ih =>
    rw [sheetNames, takenBy_cons]
    refine ih ?_
    have houtcome := outcome_sheetName taken p.1 p.2
    generalize sheetName taken p.1 p.2 = x at houtcome
    cases houtcome with
    | found hfound => exact List.nodup_cons.2 ⟨folded_not_mem_of_found hfound, h⟩
    | exhausted => exact h

/-! ### What names look like -/

/-- The name can be given to a sheet. -/
structure Allowed (name : String) : Prop where
  nonempty : 1 ≤ name.length
  short : name.length ≤ 31
  characters : ∀ c ∈ name.toList, c ∉ forbidden
  notReserved : Text.equalIgnoringCase name summaryName = false

theorem allowed_not_mem_forbidden (c : Char) : allowed c ∉ forbidden := by
  unfold allowed
  split
  case isTrue => decide
  case isFalse h =>
    rw [List.contains_eq_mem, decide_eq_true_eq] at h
    exact h

theorem not_mem_forbidden_of_mem_fullName {model document : String} {c : Char}
    (h : c ∈ fullName model document) : c ∉ forbidden := by
  obtain ⟨a, -, rfl⟩ := List.mem_map.1 h
  exact allowed_not_mem_forbidden a

/-- There is something between the names of a model and of a document. -/
theorem fullName_ne_nil (model document : String) : fullName model document ≠ [] := by
  simp [fullName]

theorem not_mem_forbidden_of_mem_numberText {n : Nat} {c : Char} (h : c ∈ numberText n) :
    c ∉ forbidden := by
  rw [numberText_eq] at h
  obtain rfl | h := List.mem_cons.1 h
  · decide
  · intro hc
    have hnone : forbidden.all (!Text.isDigit ·) = true := by decide
    have hdigit := List.all_eq_true.1 hnone c hc
    rw [Text.isDigit_of_mem_toDigits h] at hdigit
    cases hdigit

/-- **Every name that is tried has between one and 31 characters.** A number takes eleven of them at
most, so what is cut off makes room for it. -/
theorem length_attempt {name : List Char} (hname : name ≠ []) {n : Nat}
    (hn : n + 2 < numberLimit) : 1 ≤ (attempt name n).length ∧ (attempt name n).length ≤ 31 := by
  cases n with
  | zero =>
    have hpos := List.length_pos_of_ne_nil hname
    rw [attempt, String.length_ofList, List.length_take, maxNameLength]
    omega
  | succ n =>
    have hroom : (numberText (n + 2)).length ≤ 11 := length_numberText_le (by omega)
    have hone : 1 ≤ (numberText (n + 2)).length := Nat.le_add_left 1 _
    rw [attempt, withNumber, String.length_ofList, List.length_append, List.length_take,
      maxNameLength]
    omega

/-- No forbidden character is in a name that is tried. -/
theorem not_mem_forbidden_of_mem_attempt {name : List Char} (hname : ∀ c ∈ name, c ∉ forbidden)
    {n : Nat} {c : Char} (h : c ∈ (attempt name n).toList) : c ∉ forbidden := by
  cases n with
  | zero =>
    rw [attempt, String.toList_ofList] at h
    exact hname c (List.mem_of_mem_take h)
  | succ n =>
    rw [attempt, withNumber, String.toList_ofList] at h
    obtain h | h := List.mem_append.1 h
    · exact hname c (List.mem_of_mem_take h)
    · exact not_mem_forbidden_of_mem_numberText h

/-- **What is found can be given to a sheet.** -/
theorem allowed_of_found {taken : List String} {model document : String} {n : Nat}
    (h : Found taken (fullName model document) n) :
    Allowed (attempt (fullName model document) n) where
  nonempty := (length_attempt (fullName_ne_nil model document) h.fits).1
  short := (length_attempt (fullName_ne_nil model document) h.fits).2
  characters := fun _ hc =>
    not_mem_forbidden_of_mem_attempt (fun _ ha => not_mem_forbidden_of_mem_fullName ha) hc
  notReserved := by
    have hfree := h.free
    unfold isFree at hfree
    rw [Bool.and_eq_true, Bool.not_eq_true', Bool.not_eq_true'] at hfree
    exact hfree.2

/-- The names are given to the sheets one after the other: each is the first free one, and no two of
them are the same in lower case. No search fails for want of room, and none for want of numbers as
long as there are fewer sheets than numbers. -/
structure Named (pairs : List (String × String)) (names : List (Except Shortage String)) :
    Prop where
  length : names.length = pairs.length
  search : ∀ k (hk : k < pairs.length), ∃ x, names[k]? = some x ∧
    Outcome (takenBy (names.take k) []) (fullName pairs[k].1 pairs[k].2) x
  room : .error .room ∉ names
  apart : ((given names).map folded).Nodup
  allowed : ∀ name, .ok name ∈ names → Allowed name
  complete : pairs.length + 2 < numberLimit → ∃ texts : List String, names = texts.map .ok

/-- **The names of sheets are told apart, allowed and short enough.** -/
theorem named_sheetNames (pairs : List (String × String)) : Named pairs (sheetNames [] pairs) := by
  have hlength := length_sheetNames pairs []
  have houtcome : ∀ x ∈ sheetNames [] pairs, ∃ (taken : List String) (p : String × String),
      taken.length + 1 ≤ pairs.length ∧ Outcome taken (fullName p.1 p.2) x := by
    intro x hx
    obtain ⟨k, hk, rfl⟩ := List.mem_iff_getElem.1 hx
    obtain ⟨y, hy, houtcome⟩ := outcome_sheetNames pairs [] k (hlength ▸ hk)
    rw [List.getElem?_eq_getElem hk, Option.some.injEq] at hy
    subst hy
    have hle := length_takenBy_le ((sheetNames [] pairs).take k) []
    rw [List.length_take, List.length_nil] at hle
    exact ⟨_, pairs[k], by omega, houtcome⟩
  constructor
  case length => exact hlength
  case search => exact outcome_sheetNames pairs []
  case room =>
    intro hmem
    obtain ⟨taken, p, -, houtcome⟩ := houtcome _ hmem
    cases houtcome
  case apart =>
    have hnodup := nodup_sheetNames pairs List.nodup_nil
    unfold takenBy at hnodup
    rwa [List.append_nil, List.map_reverse, List.nodup_reverse] at hnodup
  case allowed =>
    intro name hname
    obtain ⟨taken, p, -, houtcome⟩ := houtcome _ hname
    cases houtcome with
    | found hfound => exact allowed_of_found hfound
  case complete =>
    intro hfew
    have hrange : sheetNames [] pairs ∈
        Set.range (List.map (Except.ok : String → Except Shortage String)) := by
      rw [Set.range_list_map]
      intro x hx
      obtain ⟨taken, p, hle, hx⟩ := houtcome x hx
      cases hx with
      | found => exact ⟨_, rfl⟩
      | exhausted _ hmany => omega
    obtain ⟨texts, htexts⟩ := hrange
    exact ⟨texts, htexts.symm⟩

example : sheetNames [] [("a.ifc", "b.ids"), ("A.ifc", "B.ids"), ("a_b~2", "")]
    = ["a_b", "A_B~2", "a_b~2_"].map .ok := by
  cbv

end BimAudit.Export
