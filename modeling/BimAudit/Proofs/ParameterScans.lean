import BimAudit.Proofs.ParameterLiterals

/-!
# Three readers of one text

A parameter text is cut into values, searched for its string literals and searched for the ids that
it refers to. Each of the three readers keeps track of quotes on its own. On a text that values are
written as they agree: what the two searches find are the strings and the references at the leaves
of the values, from left to right, whatever stands inside the strings and however deep they are.

* `Value.leaves`, `Value.leavesOf`: the values that hold no others.
* `Scans`: a search that stops at apostrophes and number signs only. `Scans.append`: what it finds
  in a written value, whatever follows.
* `scans_literals`, `scans_referencesIn`: both searches are such.
* `Value.isWritten_doubled`: strings may stand in the text as they are, with apostrophes doubled.
* `readers_agree`: **the three readers of a parameter text agree.**
-/

namespace BimAudit.Step

open Text (isWordChar trim)

/-! ### Leaves -/

namespace Value

mutual

/-- The values in a value that hold no others, from left to right. -/
def leaves : Value → List Value
  | list items => leavesOf items
  | typed _ inner => inner.leaves
  | v => [v]

/-- The values in some values that hold no others, from left to right. -/
def leavesOf : List Value → List Value
  | [] => []
  | v :: vs => v.leaves ++ leavesOf vs

end

/-- The text of a value that is a string itself. -/
def string? : Value → Option String
  | string s => some s
  | _ => none

end Value

/-! ### Searching -/

/-- The text may come behind a value: it is empty, or a comma or a closing parenthesis comes
first. -/
def Ends (r : List Char) : Prop := ∀ c ∈ r.head?, c = ',' ∨ c = ')'

/-- The search passes over every character but apostrophes and number signs. There it takes what a
string or a reference gives, and goes on behind them. -/
structure Scans {α : Type} (scan : List Char → List α) (takes : Value → List α) : Prop where
  nil : scan [] = []
  skip : ∀ (c : Char) (r : List Char), c ≠ '\'' → c ≠ '#' → scan (c :: r) = scan r
  string : ∀ (s : String) (body r : List Char), isDoubled body = true → decode body = s.toList →
    Ends r → scan ('\'' :: (body ++ '\'' :: r)) = takes (.string s) ++ scan r
  reference : ∀ (id : Nat) (r : List Char), id < Text.wordLimit → Ends r →
    scan ('#' :: (Nat.toDigits 10 id ++ r)) = takes (.reference id) ++ scan r
  /-- Nothing else gives anything. -/
  nothing : ∀ v : Value, v.string? = none → v.reference? = none → takes v = []

variable {α : Type} {scan : List Char → List α} {takes : Value → List α}

theorem ends_nil : Ends [] := nofun

theorem ends_comma (r : List Char) : Ends (',' :: r) := by
  rintro c ⟨⟩
  exact .inl rfl

theorem ends_close (r : List Char) : Ends (')' :: r) := by
  rintro c ⟨⟩
  exact .inr rfl

/-- Behind a value there is nothing else than a comma or a closing parenthesis. -/
theorem Ends.head?_ne {r : List Char} (h : Ends r) {c : Char} (hcomma : c ≠ ',')
    (hclose : c ≠ ')') : r.head? ≠ some c :=
  fun hc => (h c hc).elim hcomma hclose

/-- A scan that passes over each of some characters passes over all of them. -/
theorem skip_append (skipped : Char → Prop)
    (skip : ∀ (c : Char) (r : List Char), skipped c → scan (c :: r) = scan r) {p : List Char}
    (hp : ∀ c ∈ p, skipped c) (r : List Char) : scan (p ++ r) = scan r := by
  induction p with
  | nil => rfl
  | cons c p ih =>
    rw [List.cons_append, skip c _ (hp c List.mem_cons_self),
      ih fun d hd => hp d (List.mem_cons_of_mem _ hd)]

namespace Scans

variable (h : Scans scan takes)

include h

theorem skipAll {p : List Char} (hp : ∀ c ∈ p, c ≠ '\'' ∧ c ≠ '#') (r : List Char) :
    scan (p ++ r) = scan r :=
  skip_append _ (fun c r hc => h.skip c r hc.1 hc.2) hp r

theorem skipWord {p : List Char} (hp : ∀ c ∈ p, isWordChar c = true) (r : List Char) :
    scan (p ++ r) = scan r := by
  apply h.skipAll
  intro c hc
  have hword := hp c hc
  constructor <;>
  · rintro rfl
    revert hword
    decide

/-- A leaf without anything to be found in it. -/
theorem append_nothing {v : Value} {p : List Char} (hp : ∀ c ∈ p, c ≠ '\'' ∧ c ≠ '#')
    (hstring : v.string? = none) (href : v.reference? = none) (hleaf : v.leaves = [v])
    (r : List Char) : scan (p ++ r) = v.leaves.flatMap takes ++ scan r := by
  rw [h.skipAll hp, hleaf, List.flatMap_singleton, h.nothing v hstring href, List.nil_append]

mutual

/-- **What a search finds in a written value**, whatever follows: what it takes from the leaves. -/
theorem append : ∀ {v : Value} {p r : List Char}, v.WellFormed → v.IsWritten p → Ends r →
    scan (p ++ r) = v.leaves.flatMap takes ++ scan r
  | .string s, p, r, _, ⟨body, hbody, hdecode, heq⟩, hr => by
    have hleaf : (Value.string s).leaves = [Value.string s] := rfl
    rw [heq, List.append_assoc, List.singleton_append, List.cons_append, hleaf,
      List.flatMap_singleton, h.string s body r hbody hdecode hr]
  | .number s, p, r, hv, hp, _ => by
    obtain rfl : p = s.toList := hp
    obtain ⟨sign, whole, fraction, power, hparts⟩ := Decimal.Literal.parts_of_isNumber hv.1 hv.2
    refine h.append_nothing ?_ rfl rfl rfl r
    intro c hc
    have hliteral := hparts.mem hc
    constructor <;>
    · rintro rfl
      revert hliteral
      decide
  | .enum name, p, r, hv, hp, _ => by
    obtain rfl : p = '.' :: name.toList ++ ['.'] := hp
    rw [List.cons_append, List.cons_append, List.append_assoc, h.skip '.' _ (by decide) (by decide),
      h.skipWord hv]
    exact h.append_nothing (by simp) rfl rfl rfl r
  | .reference id, p, r, hv, hp, hr => by
    obtain rfl : p = '#' :: Nat.toDigits 10 id := hp
    have hleaf : (Value.reference id).leaves = [Value.reference id] := rfl
    rw [List.cons_append, hleaf, List.flatMap_singleton, h.reference id r hv hr]
  | .list items, p, r, hv, ⟨ps, hps, heq⟩, hr => by
    rw [heq, List.append_assoc, List.cons_append, h.skip '(' _ (by decide) (by decide),
      List.singleton_append, appendAll hv hps (ends_close r), h.skip ')' _ (by decide) (by decide),
      Value.leaves]
  | .typed type inner, p, r, hv, ⟨q, hq, heq⟩, hr => by
    rw [heq, List.append_assoc, List.append_assoc, h.skipWord fun c hc => (hv.1.2 c hc).1,
      List.cons_append, h.skip '(' _ (by decide) (by decide), List.singleton_append,
      append hv.2 hq (ends_close r), h.skip ')' _ (by decide) (by decide), Value.leaves]
  | .null, p, r, _, hp, _ => by
    obtain rfl : p = ['$'] := hp
    exact h.append_nothing (by simp) rfl rfl rfl r
  | .derived, p, r, _, hp, _ => by
    obtain rfl : p = ['*'] := hp
    exact h.append_nothing (by simp) rfl rfl rfl r

/-- **A scan takes from parameters what their leaves give**, from left to right. The induction is on
the values, whose parentheses, commas and types are passed over. -/
theorem appendAll : ∀ {vs : List Value} {ps : List (List Char)} {r : List Char},
    Value.AllWellFormed vs → Value.AreWritten vs ps → Ends r →
    scan (commaSeparated ps ++ r) = (Value.leavesOf vs).flatMap takes ++ scan r
  | [], [], _, _, _, _ => rfl
  | [v], [p], r, hv, hp, hr => by
    rw [commaSeparated, append hv.1 hp.1 hr, Value.leavesOf, Value.leavesOf, List.append_nil]
  | v :: w :: vs, p :: q :: ps, r, hv, hp, hr => by
    have hleaves : Value.leavesOf (v :: w :: vs) = v.leaves ++ Value.leavesOf (w :: vs) := rfl
    have hrest := appendAll hv.2 hp.2 hr
    rw [commaSeparated, List.append_assoc, List.cons_append, append hv.1 hp.1 (ends_comma _),
      h.skip ',' _ (by decide) (by decide), hrest, hleaves, List.flatMap_append, List.append_assoc]
    exact List.cons_ne_nil _ _

end

end Scans

/-! ### Literals and references -/

/-- The text of a string, as the search for literals yields it. -/
def literalsOf (v : Value) : List (List Char) := (v.string?.map String.toList).toList

/-- **The search for literals** takes the texts of strings. -/
theorem scans_literals : Scans literals literalsOf where
  nil := literals_nil
  skip _ r hquote _ := literals_cons hquote r
  string s body r hbody hdecode hr := by
    rw [literals_literal hbody (hr.head?_ne (by decide) (by decide)), hdecode]
    rfl
  reference id r _ _ := by
    have hdigits : ∀ c ∈ Nat.toDigits 10 id, c ≠ '\'' := by
      rintro c hc rfl
      exact absurd (Text.isDigit_of_mem_toDigits hc) (by decide)
    rw [literals_cons (by decide), skip_append _ (fun _ r hc => literals_cons hc r) hdigits]
    rfl
  nothing v hstring _ := by rw [literalsOf, hstring]; rfl

/-- The search for references passes over what stands inside a literal. -/
theorem references_doubled {body : List Char} (h : isDoubled body = true) (r : List Char) :
    references true (body ++ r) = references true r := by
  fun_induction isDoubled body with
  | case1 => rfl
  | case2 t ih => simp [references, ih h]
  | case3 c t _ ih =>
    rw [Bool.and_eq_true, decide_eq_true_eq] at h
    simp [references, h.1, ih h.2]

theorem references_skip {c : Char} (hquote : c ≠ '\'') (hsign : c ≠ '#') (r : List Char) :
    references false (c :: r) = references false r := by
  simp [references, hquote, hsign]

theorem references_digits {ds : List Char} (h : ∀ c ∈ ds, Text.isDigit c = true) (r : List Char) :
    references false (ds ++ r) = references false r := by
  refine skip_append (fun c => Text.isDigit c = true) ?_ h r
  intro c r hc
  apply references_skip <;>
  · rintro rfl
    exact absurd hc (by decide)

/-- Neither a comma nor a parenthesis goes on with the digits of an id. -/
theorem takeWhile_isDigit_append {ds r : List Char} (h : ∀ c ∈ ds, Text.isDigit c = true)
    (hr : Ends r) : (ds ++ r).takeWhile Text.isDigit = ds := by
  rw [List.takeWhile_append_of_pos h]
  cases r with
  | nil => rw [List.takeWhile_nil, List.append_nil]
  | cons c r =>
    have hc : Text.isDigit c = false := by
      rcases hr c rfl with rfl | rfl <;> decide
    rw [List.takeWhile_cons, hc]
    exact List.append_nil ds

/-- **The search for references** takes the identifiers. -/
theorem scans_referencesIn : Scans referencesIn fun v => v.reference?.toList where
  nil := rfl
  skip _ r hquote hsign := references_skip hquote hsign r
  string s body r hbody _ _ := by
    have hinside : references true (body ++ '\'' :: r) = references false r := by
      rw [references_doubled hbody]
      simp [references]
    simpa [referencesIn, references, Value.reference?] using hinside
  reference id r hid hr := by
    have hdigits : ∀ c ∈ Nat.toDigits 10 id, Text.isDigit c = true := fun _ hc =>
      Text.isDigit_of_mem_toDigits hc
    have hword : Text.wordDigits? ((Nat.toDigits 10 id ++ r).takeWhile Text.isDigit) = some id := by
      rw [takeWhile_isDigit_append hdigits hr, Text.wordDigits?_toDigits hid]
    simp [referencesIn, references, hword, references_digits hdigits, Value.reference?]
  nothing v _ href := by rw [href]; rfl

/-! ### Strings as they are -/

/-- A text in which apostrophes are doubled and nothing else is changed. -/
def doubled (s : List Char) : List Char := s.flatMap fun c => if c = '\'' then ['\'', '\''] else [c]

/-- A text with its apostrophes doubled is one literal. -/
theorem isDoubled_doubled (s : List Char) : isDoubled (doubled s) = true := by
  induction s with
  | nil => rfl
  | cons c s ih =>
    rw [doubled, List.flatMap_cons]
    refine isDoubled_append ?_ ih
    split
    · rfl
    · next hc => simp [isDoubled, hc]

/-- Without backslashes there are no directives in a text. -/
theorem decode_doubled {s : List Char} (h : '\\' ∉ s) : decode (doubled s) = s := by
  induction s with
  | nil => rw [doubled, List.flatMap_nil, decode]
  | cons c s ih =>
    rw [List.mem_cons, not_or] at h
    have hunit : decode ((if c = '\'' then ['\'', '\''] else [c]) ++ doubled s)
        = c :: decode (doubled s) := by
      split
      · next hc =>
        rw [List.cons_append, decode_cons, hc]
        rfl
      · next hc =>
        rw [List.singleton_append, decode_cons]
        simp [decodeUnit, hc, Ne.symm h.1]
    rw [doubled, List.flatMap_cons]
    exact hunit.trans (congrArg (c :: ·) (ih h.2))

/-- **A string without backslashes may be written as it is**, but for its apostrophes. -/
theorem Value.isWritten_doubled {s : String} (h : '\\' ∉ s.toList) :
    (Value.string s).IsWritten ('\'' :: doubled s.toList ++ ['\'']) :=
  ⟨doubled s.toList, isDoubled_doubled _, decode_doubled h, rfl⟩

/-! ### Agreement -/

/-- The literals are the texts of the strings. -/
theorem flatMap_literalsOf (vs : List Value) :
    vs.flatMap literalsOf = (vs.filterMap Value.string?).map String.toList := by
  rw [List.map_filterMap, List.filterMap_eq_flatMap_toList]
  rfl

/-- **The three readers of a parameter text agree.** However the strings in it are encoded, as long
as apostrophes are doubled: the literals are the strings at the leaves of the values, the references
are those at the leaves, both from left to right, and the values are read back themselves. -/
theorem readers_agree {vs : List Value} {ps : List (List Char)} (hv : Value.AllWellFormed vs)
    (h : Value.AreWritten vs ps) :
    literals (commaSeparated ps)
        = ((Value.leavesOf vs).filterMap Value.string?).map String.toList ∧
      referencesIn (commaSeparated ps) = (Value.leavesOf vs).filterMap Value.reference? ∧
      Value.readAll (commaSeparated ps) = vs := by
  have hliterals := scans_literals.appendAll hv h ends_nil
  have hreferences := scans_referencesIn.appendAll hv h ends_nil
  rw [List.append_nil, scans_literals.nil, List.append_nil, flatMap_literalsOf] at hliterals
  rw [List.append_nil, scans_referencesIn.nil, List.append_nil,
    ← List.filterMap_eq_flatMap_toList] at hreferences
  exact ⟨hliterals, hreferences, Value.readAll_of_areWritten hv h⟩

/-- Values with a comma, a number sign and parentheses inside a string, two levels deep. -/
def nested : List Value :=
  [.list [.string "O'Brien, #9 (ü)", .reference 7, .typed "IFCLABEL" (.string "x"), .null],
    .enum "T", .number "2.5", .derived, .reference 12]

/-- Written forms of them, with the first string as it is. -/
def nestedTexts : List (List Char) :=
  ["('O''Brien, #9 (ü)',#7,IFCLABEL('x'),$)".toList, ".T.".toList, "2.5".toList, "*".toList,
    "#12".toList]

/-- A string with an apostrophe, a number sign and a comma is taken as a literal, and what is in it
is no reference. -/
theorem readers_agree_nested :
    (Value.AllWellFormed nested ∧ Value.AreWritten nested nestedTexts) ∧
      literals (commaSeparated nestedTexts) = ["O'Brien, #9 (ü)".toList, "x".toList] ∧
      referencesIn (commaSeparated nestedTexts) = [7, 12] ∧
      Value.readAll (commaSeparated nestedTexts) = nested := by
  have hname : ∀ c ∈ "T".toList, isWordChar c = true := List.all_eq_true.1 rfl
  have hnumber : trim "2.5".toList = "2.5".toList ∧ Decimal.isNumber "2.5".toList = true := by
    decide
  have hids : 7 < Text.wordLimit ∧ 12 < Text.wordLimit := by decide
  have hv : Value.AllWellFormed nested :=
    ⟨⟨trivial, hids.1, ⟨by decide, trivial⟩, trivial, trivial⟩, hname, hnumber, trivial, hids.2,
      trivial⟩
  have h : Value.AreWritten nested nestedTexts :=
    ⟨⟨[_, _, _, _], ⟨Value.isWritten_doubled (by decide), rfl,
        ⟨_, Value.isWritten_doubled (by decide), rfl⟩, rfl, trivial⟩, rfl⟩,
      rfl, rfl, rfl, rfl, trivial⟩
  exact ⟨⟨hv, h⟩, readers_agree hv h⟩

end BimAudit.Step
