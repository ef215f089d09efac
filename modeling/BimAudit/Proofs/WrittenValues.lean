import BimAudit.Proofs.ParameterTexts

/-!
# Values are read back

A well-formed value is told from its plain written form by its first and last characters, and what
it holds is read in the same way.

* `shape_string`, `shape_list`, `shape_typed`, …: what each kind of value looks like from outside.
* `Value.IsWritten`: the written forms of a value, which encode their strings in any way.
* `Value.passes_of_isWritten`: a written value goes through the splitter as one piece.
* `Value.readAll_of_areWritten`, `Value.readAll_writeParameters`: **reading undoes writing**, at any
  depth.
-/

namespace BimAudit.Step

open Text (trim isBlank isWordChar)

/-! ### Ends of texts -/

/-- What stands between two characters is found. -/
theorem between?_eq_some (a b : Char) (s : List Char) : between? a b (a :: s ++ [b]) = some s := by
  have hne : s ++ [b] ≠ [] := List.append_ne_nil_of_right_ne_nil s (List.cons_ne_nil b [])
  rw [List.cons_append, between?]
  · rw [if_pos ⟨rfl, List.getLast?_concat⟩, List.dropLast_concat]
  · exact fun hnil => hne hnil

/-- Nothing stands between two characters if the first one is missing. -/
theorem between?_of_head_ne {a b c : Char} (h : c ≠ a) (s : List Char) :
    between? a b (c :: s) = none := by
  cases s with
  | nil => rfl
  | cons d s =>
    rw [between?, if_neg]
    · exact fun hboth => h hboth.1
    · exact fun hnil => nomatch hnil

/-- Nothing stands between two characters if the second one is missing. -/
theorem between?_of_last_not_mem {a b c : Char} {s : List Char} (h : b ∉ s) :
    between? a b (c :: s) = none := by
  cases s with
  | nil => rfl
  | cons d s =>
    rw [between?, if_neg]
    · exact fun hboth => h (List.mem_of_getLast? hboth.2)
    · exact fun hnil => nomatch hnil

/-- A reference begins with its mark. -/
theorem reference?_of_head_ne {c : Char} (h : c ≠ '#') (s : List Char) :
    reference? (c :: s) = none := by
  unfold reference?
  split
  · next heq => exact absurd (List.cons.inj heq).1 h
  · rfl

/-! ### Shapes -/

/-- The value that a text of this shape stands for. -/
def Shape.value (s : List Char) : Shape → Value
  | .null => .null
  | .derived => .derived
  | .reference id => .reference id
  | .string body => .string (String.ofList (decode body))
  | .enum body => .enum (String.ofList body)
  | .list body => .list (Value.readAll body)
  | .number => .number (String.ofList s)
  | .typed type body => .typed (upperString type) (Value.read body)
  | .bare => .string (String.ofList s)

/-- **A value is read by its shape**, after the blanks around it are dropped. -/
theorem read_eq_value (s : List Char) : Value.read s = (Shape.of (trim s)).value (trim s) := by
  rw [Value.read]
  split <;> next h => rw [h, Shape.value]

/-- What begins like none of the simple shapes is an enumeration, a list, a number, a typed value or
bare text, tried in this order. -/
theorem shape_of_cons {c : Char} {r : List Char} (hnull : c ≠ '$') (hderived : c ≠ '*')
    (href : c ≠ '#') (hstring : c ≠ '\'') : Shape.of (c :: r) =
      match (between? '.' '.' (c :: r)).filter (·.all isWordChar) with
      | some body => .enum body
      | none =>
      match between? '(' ')' (c :: r) with
      | some body => .list body
      | none =>
      if isNumeric (c :: r) then .number
      else match typed? (c :: r) with
      | some (type, body) => .typed type body
      | none => .bare := by
  have hopen : ¬ (c :: r = [] ∨ c :: r = ['$']) := by
    rintro (h | h)
    · cases h
    · exact hnull (List.cons.inj h).1
  rewrite [Shape.of, if_neg hopen, if_neg fun h => hderived (List.cons.inj h).1,
    reference?_of_head_ne href, between?_of_head_ne hstring]
  rfl

/-- The shape of a written reference. -/
theorem shape_reference {id : Nat} (h : id < Text.wordLimit) :
    Shape.of ('#' :: Nat.toDigits 10 id) = .reference id := by
  have href : reference? ('#' :: Nat.toDigits 10 id) = some id := Text.word?_toDigits h
  rw [Shape.of, if_neg, if_neg, href]
  · exact fun h => absurd (List.cons.inj h).1 (by decide)
  · rintro (h | h)
    · cases h
    · exact absurd (List.cons.inj h).1 (by decide)

/-- The shape of a written string. -/
theorem shape_string (body : List Char) :
    Shape.of ('\'' :: body ++ ['\'']) = .string body := by
  have href : reference? ('\'' :: body ++ ['\'']) = none := reference?_of_head_ne (by decide) _
  rw [Shape.of, if_neg, if_neg, href, between?_eq_some]
  · exact fun h => absurd (List.cons.inj h).1 (by decide)
  · rintro (h | h)
    · cases h
    · exact absurd (List.cons.inj h).1 (by decide)

/-- The shape of a written enumeration. -/
theorem shape_enum {name : List Char} (h : ∀ c ∈ name, isWordChar c = true) :
    Shape.of ('.' :: name ++ ['.']) = .enum name := by
  have hall : name.all isWordChar = true := List.all_eq_true.2 h
  rw [List.cons_append, shape_of_cons (by decide) (by decide) (by decide) (by decide),
    ← List.cons_append, between?_eq_some, Option.filter_some, if_pos hall]

/-- The shape of a written list. -/
theorem shape_list (body : List Char) : Shape.of ('(' :: body ++ [')']) = .list body := by
  rw [List.cons_append, shape_of_cons (by decide) (by decide) (by decide) (by decide),
    between?_of_head_ne (by decide), Option.filter_none, ← List.cons_append, between?_eq_some]

/-- A number literal is no name between points, as it has no second point behind one in front. -/
theorem shape_number {s : List Char} (htrim : trim s = s) (h : Decimal.isNumber s = true) :
    Shape.of s = .number := by
  obtain ⟨sign, whole, fraction, power, hparts⟩ := Decimal.Literal.parts_of_isNumber htrim h
  obtain ⟨c, r, rfl, hc⟩ := hparts.head
  have hne : ∀ d, (Text.isDigit d || d = '-' || d = '+' || d = '.') = false → c ≠ d := by
    rintro d hd rfl
    rw [hc] at hd
    cases hd
  have hpoint : between? '.' '.' (c :: r) = none := by
    -- with a point in front, the last character is another one
    by_cases hdot : c = '.'
    · subst hdot
      exact between?_of_last_not_mem hparts.tail
    · exact between?_of_head_ne hdot r
  have hnumeric : isNumeric (c :: r) = true := by
    rw [isNumeric, hc, h]
    rfl
  rw [shape_of_cons (hne _ (by decide)) (hne _ (by decide)) (hne _ (by decide)) (hne _ (by decide)),
    hpoint, Option.filter_none, between?_of_head_ne (hne _ (by decide)), if_pos hnumeric]

/-! ### Typed values -/

theorem not_mem_of_isWordChar {p : List Char} (h : ∀ c ∈ p, isWordChar c = true) {a : Char}
    (ha : isWordChar a = false) : a ∉ p := by
  intro hmem
  rw [h a hmem] at ha
  cases ha

/-- A typed value is its type and what stands in the brackets. -/
theorem typed?_eq_some {type : List Char} (hne : type ≠ [])
    (h : ∀ c ∈ type, isWordChar c = true) (body : List Char) :
    typed? (type ++ '(' :: body ++ [')']) = some (type, body) := by
  have hopen : '(' ∉ type := not_mem_of_isWordChar h (by decide)
  have hall : type ≠ [] ∧ type.all isWordChar = true := ⟨hne, List.all_eq_true.2 h⟩
  unfold typed?
  rw [List.append_assoc, List.cons_append, Text.takeWhile_ne_append hopen,
    Text.dropWhile_ne_append hopen, ← List.cons_append, between?_eq_some]
  simp only [Option.bind_some, if_pos hall]

/-- The number literals have no parentheses. -/
theorem isNumeric_of_mem {s : List Char} (htrim : trim s = s) {a : Char} (hmem : a ∈ s)
    (ha : Decimal.Literal.isLiteralChar a = false) : isNumeric s = false := by
  cases s with
  | nil => rfl
  | cons c r =>
    cases hnumber : Decimal.isNumber (c :: r) with
    | false => rw [isNumeric, hnumber, Bool.and_false]
    | true =>
      obtain ⟨sign, whole, fraction, power, hparts⟩ :=
        Decimal.Literal.parts_of_isNumber htrim hnumber
      rw [hparts.mem hmem] at ha
      cases ha

theorem code_of_isWordChar {c : Char} (h : isWordChar c = true) :
    0x2F < c.toNat ∧ c.toNat < 0x7B := by
  rw [Text.isWordChar_iff] at h
  omega

theorem isPlain_of_isLiteralChar {c : Char} (h : Decimal.Literal.isLiteralChar c = true) :
    isPlain c = true := by
  unfold isPlain
  simp only [ne_eq, decide_not, Bool.and_eq_true, Bool.not_eq_true', decide_eq_false_iff_not]
  refine ⟨⟨⟨?_, ?_⟩, ?_⟩, ?_⟩ <;>
  · rintro rfl
    revert h
    decide

theorem isBlank_of_isWordChar {c : Char} (h : isWordChar c = true) : isBlank c = false := by
  have hcode := code_of_isWordChar h
  unfold isBlank Text.blankRanges
  simp only [List.any_cons, List.any_nil, Bool.or_eq_false_iff, Bool.and_eq_false_iff,
    decide_eq_false_iff_not, and_true]
  omega

theorem isWordChar_of_isTypeName {type : List Char} (h : Value.IsTypeName type) {c : Char}
    (hc : c ∈ type) : isWordChar c = true := (h.2 c hc).1

/-- A type is no number, so what looks like a typed value is one. -/
theorem shape_typed {type : List Char} (h : Value.IsTypeName type) (body : List Char)
    (htrim : trim (type ++ '(' :: body ++ [')']) = type ++ '(' :: body ++ [')']) :
    Shape.of (type ++ '(' :: body ++ [')']) = .typed type body := by
  have hmem : '(' ∈ type ++ '(' :: body ++ [')'] := by simp
  have hnumeric := isNumeric_of_mem htrim hmem (by decide)
  have htyped := typed?_eq_some h.1 (fun c hc => isWordChar_of_isTypeName h hc) body
  cases htype : type with
  | nil => exact absurd htype h.1
  | cons c r =>
    have hc : ∀ d, isWordChar d = false → c ≠ d := by
      rintro d hd rfl
      rw [isWordChar_of_isTypeName h (htype ▸ List.mem_cons_self)] at hd
      cases hd
    -- the first character is one of a word, so only the type is left to decide
    rw [htype] at hnumeric htyped
    simp only [List.cons_append] at hnumeric htyped ⊢
    rw [shape_of_cons (hc _ (by decide)) (hc _ (by decide)) (hc _ (by decide))
      (hc _ (by decide)), between?_of_head_ne (hc _ (by decide)), Option.filter_none,
      between?_of_head_ne (hc _ (by decide)), hnumeric, htyped]
    rfl

/-! ### Written forms -/

namespace Value

mutual

/-- The text is a written form of the value: the plain one but for the strings in it, which may be
encoded in any way in which apostrophes are doubled. -/
def IsWritten : Value → List Char → Prop
  | string s, t => ∃ body, isDoubled body = true ∧ decode body = s.toList ∧
      t = '\'' :: body ++ ['\'']
  | list items, t => ∃ ps, AreWritten items ps ∧ t = '(' :: commaSeparated ps ++ [')']
  | typed type inner, t => ∃ p, inner.IsWritten p ∧ t = type.toList ++ '(' :: p ++ [')']
  | v, t => t = v.write

/-- The texts are written forms of the values, one for each. -/
def AreWritten : List Value → List (List Char) → Prop
  | [], [] => True
  | v :: vs, p :: ps => v.IsWritten p ∧ AreWritten vs ps
  | _, _ => False

end

mutual

/-- The plain form is one of them. -/
theorem isWritten_write : ∀ v : Value, v.IsWritten v.write
  | string s => ⟨encode s.toList, isDoubled_encode s.toList, decode_encode s.toList, rfl⟩
  | number _ => rfl
  | enum _ => rfl
  | .reference _ => rfl
  | list items => ⟨writeAll items, areWritten_writeAll items, rfl⟩
  | typed _ inner => ⟨inner.write, isWritten_write inner, rfl⟩
  | null => rfl
  | derived => rfl

/-- The parameters of a list are written one by one. -/
theorem areWritten_writeAll : ∀ vs : List Value, AreWritten vs (writeAll vs)
  | [] => trivial
  | v :: vs => ⟨isWritten_write v, areWritten_writeAll vs⟩

end

variable {v : Value} {vs : List Value} {p : List Char} {ps : List (List Char)}

/-! ### Ends of written values -/

/-- No well-formed value is written as nothing. -/
theorem ne_nil_of_isWritten (hv : v.WellFormed) (h : v.IsWritten p) : p ≠ [] := by
  cases v with
  | string s =>
    obtain ⟨body, -, -, rfl⟩ := h
    exact List.cons_ne_nil _ _
  | number s =>
    obtain rfl : p = s.toList := h
    intro hnil
    have hnumber := hv.2
    rw [hnil] at hnumber
    exact absurd hnumber (by decide)
  | list items =>
    obtain ⟨ps, -, rfl⟩ := h
    exact List.cons_ne_nil _ _
  | typed type inner =>
    obtain ⟨q, -, rfl⟩ := h
    rw [List.append_assoc]
    exact List.append_ne_nil_of_left_ne_nil hv.1.1 _
  | enum name =>
    obtain rfl : p = '.' :: name.toList ++ ['.'] := h
    exact List.cons_ne_nil _ _
  | reference id =>
    obtain rfl : p = '#' :: Nat.toDigits 10 id := h
    exact List.cons_ne_nil _ _
  | null =>
    obtain rfl : p = ['$'] := h
    exact List.cons_ne_nil _ _
  | derived =>
    obtain rfl : p = ['*'] := h
    exact List.cons_ne_nil _ _

theorem isBlank_of_isDigit {c : Char} (h : Text.isDigit c = true) : isBlank c = false := by
  apply isBlank_of_isWordChar
  unfold isWordChar Char.isAlphanum
  rw [← Text.isDigit_eq, h, Bool.or_true, Bool.true_or]

theorem trim_toDigits (n : Nat) : trim (Nat.toDigits 10 n) = Nat.toDigits 10 n :=
  Text.trim_of_not_isBlank fun _ hc => isBlank_of_isDigit (Text.isDigit_of_mem_toDigits hc)

/-- A value is written without blanks around it. -/
theorem trim_of_isWritten (hv : v.WellFormed) (h : v.IsWritten p) : trim p = p := by
  cases v with
  | string s =>
    obtain ⟨body, -, -, rfl⟩ := h
    exact Text.trim_between (by decide) (by decide) _
  | number s =>
    obtain rfl : p = s.toList := h
    exact hv.1
  | enum name =>
    obtain rfl : p = '.' :: name.toList ++ ['.'] := h
    exact Text.trim_between (by decide) (by decide) _
  | reference id =>
    obtain rfl : p = '#' :: Nat.toDigits 10 id := h
    apply Text.trim_of_not_isBlank
    intro c hc
    rcases List.mem_cons.1 hc with rfl | hc
    · decide
    · exact isBlank_of_isDigit (Text.isDigit_of_mem_toDigits hc)
  | list items =>
    obtain ⟨ps, -, rfl⟩ := h
    exact Text.trim_between (by decide) (by decide) _
  | typed type inner =>
    obtain ⟨q, -, rfl⟩ := h
    cases htype : type.toList with
    | nil => exact absurd htype hv.1.1
    | cons c r =>
      have hc : isBlank c = false :=
        isBlank_of_isWordChar (isWordChar_of_isTypeName hv.1 (htype ▸ List.mem_cons_self))
      exact Text.trim_between hc (b := ')') (by decide) (r ++ '(' :: q)
  | null =>
    obtain rfl : p = ['$'] := h
    decide
  | derived =>
    obtain rfl : p = ['*'] := h
    decide

/-! ### Written values are single pieces -/

mutual

/-- **A written value goes through the splitter as one piece.** -/
theorem passes_of_isWritten : ∀ {v : Value} {p : List Char}, v.WellFormed → v.IsWritten p → Passes p
  | string _, _, _, ⟨_, hbody, _, heq⟩ => heq ▸ passes_literal (passesQuoted_of_isDoubled hbody)
  | number s, p, hv, h => by
    obtain rfl : p = s.toList := h
    obtain ⟨sign, whole, fraction, power, hparts⟩ :=
      Decimal.Literal.parts_of_isNumber hv.1 hv.2
    exact passes_of_isPlain fun c hc => isPlain_of_isLiteralChar (hparts.mem hc)
  | enum name, p, hv, h => by
    obtain rfl : p = '.' :: name.toList ++ ['.'] := h
    have hname : Passes name.toList := passes_of_isPlain fun c hc => isPlain_of_isWordChar (hv c hc)
    have hpoint : Passes ['.'] := passes_of_isPlain (List.all_eq_true.1 rfl)
    exact (hpoint.append hname).append hpoint
  | .reference id, p, _, h => by
    obtain rfl : p = '#' :: Nat.toDigits 10 id := h
    have hsign : Passes ['#'] := passes_of_isPlain (List.all_eq_true.1 rfl)
    have hdigits : Passes (Nat.toDigits 10 id) := passes_of_isPlain fun c hc =>
      isPlain_of_isLiteralChar
        (Decimal.Literal.isLiteralChar_of_isDigit (Text.isDigit_of_mem_toDigits hc))
    exact hsign.append hdigits
  | list _, _, hv, ⟨_, h, heq⟩ =>
    heq ▸ passes_parentheses (passesInside_commaSeparated (passes_of_areWritten hv h))
  | typed type inner, p, hv, ⟨q, h, heq⟩ => by
    have htype : Passes type.toList :=
      passes_of_isPlain fun c hc => isPlain_of_isWordChar (isWordChar_of_isTypeName hv.1 hc)
    have hinner := passes_parentheses (passes_of_isWritten hv.2 h).inside
    rw [heq, List.append_assoc]
    exact htype.append hinner
  | null, p, _, h => by
    obtain rfl : p = ['$'] := h
    exact passes_of_isPlain (List.all_eq_true.1 rfl)
  | derived, p, _, h => by
    obtain rfl : p = ['*'] := h
    exact passes_of_isPlain (List.all_eq_true.1 rfl)

/-- A scanner passes over each parameter of a list. -/
theorem passes_of_areWritten : ∀ {vs : List Value} {ps : List (List Char)},
    AllWellFormed vs → AreWritten vs ps → ∀ p ∈ ps, Passes p
  | [], [], _, _, _, hp => nomatch hp
  | _ :: _, q :: _, hv, h, p, hp => by
    rcases List.mem_cons.1 hp with rfl | hp
    · exact passes_of_isWritten hv.1 h.1
    · exact passes_of_areWritten hv.2 h.2 p hp

end

/-! ### Reading -/

theorem readAll_eq_map (s : List Char) : readAll s = (splitParameters s).map read := by
  rw [readAll]
  simp

/-- Each text of a list is that of one of its values. -/
theorem exists_of_mem (hv : AllWellFormed vs) (h : AreWritten vs ps) (hp : p ∈ ps) :
    ∃ v : Value, v.WellFormed ∧ v.IsWritten p := by
  induction vs generalizing ps with
  | nil =>
    cases ps with
    | nil => cases hp
    | cons q ps => cases h
  | cons v vs ih =>
    cases ps with
    | nil => cases h
    | cons q ps =>
      rcases List.mem_cons.1 hp with rfl | hp
      · exact ⟨v, hv.1, h.1⟩
      · exact ih hv.2 h.2 hp

/-- **Written values are the parameters of the text that they make.** -/
theorem splitParameters_of_areWritten (hv : AllWellFormed vs) (h : AreWritten vs ps) :
    splitParameters (commaSeparated ps) = ps := by
  apply splitParameters_commaSeparated (passes_of_areWritten hv h)
  · intro p hp
    obtain ⟨v, hv, hp⟩ := exists_of_mem hv h hp
    exact ne_nil_of_isWritten hv hp
  · intro p hp
    obtain ⟨v, hv, hp⟩ := exists_of_mem hv h hp
    exact trim_of_isWritten hv hp

/-- The name of a type is in upper case. -/
theorem upperString_of_isTypeName {type : String} (h : IsTypeName type.toList) :
    upperString type.toList = type := by
  have hmap : type.toList.map Char.toUpper = type.toList := by
    rw [List.map_congr_left fun c hc => (h.2 c hc).2, List.map_id']
  rw [upperString, hmap, String.ofList_toList]

mutual

/-- **Reading a value undoes writing it**, at any depth. -/
theorem read_of_isWritten : ∀ {v : Value} {p : List Char}, v.WellFormed → v.IsWritten p → read p = v
  | string s, p, hv, h => by
    rw [read_eq_value, trim_of_isWritten hv h]
    obtain ⟨body, -, hbody, rfl⟩ := h
    rw [shape_string, Shape.value, hbody, String.ofList_toList]
  | number s, p, hv, h => by
    rw [read_eq_value, trim_of_isWritten hv h]
    obtain rfl : p = s.toList := h
    rw [shape_number hv.1 hv.2, Shape.value, String.ofList_toList]
  | enum name, p, hv, h => by
    rw [read_eq_value, trim_of_isWritten hv h]
    obtain rfl : p = '.' :: name.toList ++ ['.'] := h
    rw [shape_enum hv, Shape.value, String.ofList_toList]
  | .reference id, p, hv, h => by
    rw [read_eq_value, trim_of_isWritten hv h]
    obtain rfl : p = '#' :: Nat.toDigits 10 id := h
    rw [shape_reference hv, Shape.value]
  | list items, p, hv, h => by
    rw [read_eq_value, trim_of_isWritten hv h]
    obtain ⟨ps, h, rfl⟩ := h
    -- the members come out of the splitter as they were written
    rw [shape_list, Shape.value, readAll_eq_map, splitParameters_of_areWritten hv h,
      read_of_areWritten hv h]
  | typed type inner, p, hv, h => by
    have htrim := trim_of_isWritten hv h
    rw [read_eq_value, htrim]
    obtain ⟨q, h, rfl⟩ := h
    rw [shape_typed hv.1 _ htrim, Shape.value, read_of_isWritten hv.2 h,
      upperString_of_isTypeName hv.1]
  | null, p, hv, h => by
    obtain rfl : p = ['$'] := h
    rw [read_eq_value]
    rfl
  | derived, p, hv, h => by
    obtain rfl : p = ['*'] := h
    rw [read_eq_value]
    rfl

/-- **The values of a list are read back one by one.** -/
theorem read_of_areWritten : ∀ {vs : List Value} {ps : List (List Char)},
    AllWellFormed vs → AreWritten vs ps → ps.map read = vs
  | [], [], _, _ => rfl
  | _ :: _, _ :: _, hv, h => by
    rw [List.map_cons, read_of_isWritten hv.1 h.1, read_of_areWritten hv.2 h.2]

end

/-- **The values of a parameter text are read back**, however their strings are encoded. -/
theorem readAll_of_areWritten (hv : AllWellFormed vs) (h : AreWritten vs ps) :
    readAll (commaSeparated ps) = vs := by
  rw [readAll_eq_map, splitParameters_of_areWritten hv h, read_of_areWritten hv h]

/-- So they are read back from the plain form. -/
theorem readAll_writeParameters {vs : List Value} (h : AllWellFormed vs) :
    readAll (writeParameters vs) = vs :=
  readAll_of_areWritten h (areWritten_writeAll vs)

end Value

end BimAudit.Step
