import BimAudit.Proofs.EncodedStrings

/-!
# Groups of digits in encoded strings

Behind `\X\`, `\X2\` and `\X4\` come base-sixteen digits, in groups of two, four and eight. A group
is read as a numeral, and numerals may begin with a plus sign, so a plus sign with digits behind it
passes for a group as well. Everywhere else digits and nothing else are read: what is no group ends
the reading and is kept as written.

* `hex?_of_isNumeral`, `hex?_eq_none`: what is a numeral in base sixteen.
* `hexGroups_of_cut`: the groups at the front of a text are cut off as long as they are numerals.
* `Cut.exists_more`: a reader of digits stops at a plus sign where a reader of numerals goes on.
* `decode_directives`: **what the three directives stand for, in every text**, and where digits
  alone would give the same. `exists_signed_group`: where they do not.
-/

namespace BimAudit.Text

/-- A base-sixteen digit, in either case. -/
def isHexDigit (c : Char) : Bool := isDigit c || ('a' ≤ c && c ≤ 'f') || ('A' ≤ c && c ≤ 'F')

/-- One digit or more, and nothing else. -/
def IsDigits (s : List Char) : Prop := s ≠ [] ∧ ∀ c ∈ s, isHexDigit c = true

/-- Digits, with one plus sign in front or none. -/
def IsNumeral (s : List Char) : Prop := IsDigits s ∨ ∃ ds, s = '+' :: ds ∧ IsDigits ds

instance (s : List Char) : Decidable (IsDigits s) :=
  decidable_of_iff (s ≠ [] ∧ s.all isHexDigit = true) (and_congr_right fun _ => List.all_eq_true)

/-- The value of a digit; no other character counts. -/
def digitValue (c : Char) : Nat := (hexDigit? c).getD 0

/-- The value of digits in base sixteen, most significant first. -/
def hexValue (s : List Char) : Nat := s.foldl (fun n c => 16 * n + digitValue c) 0

variable {s ds : List Char} {c : Char}

theorem isSome_hexDigit? (c : Char) : (hexDigit? c).isSome = isHexDigit c := by
  unfold hexDigit? isHexDigit
  grind

theorem hexDigit?_of_isHexDigit (h : isHexDigit c = true) : hexDigit? c = some (digitValue c) := by
  rw [← isSome_hexDigit?, Option.isSome_iff_exists] at h
  obtain ⟨d, hd⟩ := h
  rw [digitValue, hd, Option.getD_some]

/-- The digits by their codes. -/
theorem hexDigit?_eq (c : Char) : hexDigit? c =
    if 48 ≤ c.toNat ∧ c.toNat ≤ 57 then some (c.toNat - 48)
    else if 97 ≤ c.toNat ∧ c.toNat ≤ 102 then some (c.toNat - 97 + 10)
    else if 65 ≤ c.toNat ∧ c.toNat ≤ 70 then some (c.toNat - 65 + 10)
    else none := by
  unfold hexDigit? isDigit
  simp only [Bool.and_eq_true, decide_eq_true_eq, Char.le_def, UInt32.le_iff_toNat_le, Char.toNat,
    Char.reduceVal, UInt32.reduceToNat]

theorem digitValue_lt (c : Char) : digitValue c < 16 := by
  rw [digitValue, hexDigit?_eq]
  grind

theorem ofNat_digitValue_ne (c : Char) : Char.ofNat (digitValue c) ≠ '\\' := by
  have hall : ∀ d : Fin 16, Char.ofNat d ≠ '\\' := by decide
  exact hall ⟨digitValue c, digitValue_lt c⟩

/-- Digits do not begin with a plus sign. -/
theorem IsDigits.head_ne (h : IsDigits s) : s.head? ≠ some '+' := by
  intro hplus
  have := h.2 '+' (List.mem_of_head? hplus)
  revert this
  decide

/-- Digits are read one after the other on top of what was read before. -/
theorem foldlM_hexDigit? (h : ∀ c ∈ s, isHexDigit c = true) (m : Nat) :
    s.foldlM (fun n c => (hexDigit? c).map (16 * n + ·)) m
      = some (s.foldl (fun n c => 16 * n + digitValue c) m) := by
  induction s generalizing m with
  | nil => rfl
  | cons c s ih =>
    rw [List.foldlM_cons, hexDigit?_of_isHexDigit (h c List.mem_cons_self), List.foldl_cons]
    exact ih (fun d hd => h d (List.mem_cons_of_mem _ hd)) _

/-- Nothing else can be read as digits. -/
theorem isHexDigit_of_foldlM {m n : Nat}
    (h : s.foldlM (fun n c => (hexDigit? c).map (16 * n + ·)) m = some n) :
    ∀ c ∈ s, isHexDigit c = true := by
  induction s generalizing m with
  | nil => exact fun c hc => absurd hc List.not_mem_nil
  | cons c s ih =>
    rw [List.foldlM_cons] at h
    obtain ⟨m', hm', hrest⟩ := Option.bind_eq_some_iff.1 h
    obtain ⟨d, hd, -⟩ := Option.map_eq_some_iff.1 hm'
    intro b hb
    rcases List.mem_cons.1 hb with rfl | hb
    · rw [← isSome_hexDigit?, hd]
      rfl
    · exact ih hrest b hb

/-- Digits have a value. -/
theorem hexDigits?_of_isDigits (h : IsDigits s) : hexDigits? s = some (hexValue s) := by
  unfold hexDigits?
  rw [if_neg h.1, foldlM_hexDigit? h.2]
  rfl

/-- What is not made of digits alone has none. -/
theorem hexDigits?_eq_none (h : ¬ IsDigits s) : hexDigits? s = none := by
  unfold hexDigits?
  split
  · rfl
  · next hne =>
    cases hs : s.foldlM (fun n c => (hexDigit? c).map (16 * n + ·)) 0 with
    | none => rfl
    | some n => exact absurd ⟨hne, isHexDigit_of_foldlM hs⟩ h

/-- The sign in front of a numeral does not count. -/
theorem hexValue_plus (ds : List Char) : hexValue ('+' :: ds) = hexValue ds := rfl

theorem hexValue_singleton (c : Char) : hexValue [c] = digitValue c := by
  simp [hexValue]

/-- **A plus sign in front of digits is read over.** -/
theorem hex?_of_isNumeral (h : IsNumeral s) : hex? s = some (hexValue s) := by
  rcases h with h | ⟨ds, rfl, h⟩
  · rw [hex?_of_head_ne h.head_ne, hexDigits?_of_isDigits h]
  · exact (hexDigits?_of_isDigits h).trans (by rw [hexValue_plus])

/-- What is no numeral is not read. -/
theorem hex?_eq_none (h : ¬ IsNumeral s) : hex? s = none := by
  unfold IsNumeral at h
  rw [not_or] at h
  unfold hex?
  split
  · next ds => exact hexDigits?_eq_none fun hds => h.2 ⟨ds, rfl, hds⟩
  · exact hexDigits?_eq_none h.1

/-- More units give one more character each at most. -/
theorem length_charsOfUnits_append_le (us vs : List Nat) :
    (charsOfUnits (us ++ vs)).length ≤ (charsOfUnits us).length + vs.length := by
  have hle : ∀ ws, (charsOfUnits ws).length ≤ ws.length := by
    intro ws
    fun_induction charsOfUnits ws <;> simp only [List.length_cons, List.length_nil] at * <;> omega
  fun_induction charsOfUnits us with
  | case1 => simpa using hle vs
  | case2 u =>
    have := hle ([u] ++ vs)
    simp only [List.length_append, List.length_cons, List.length_nil] at *
    omega
  | case3 u v us h ih =>
    simp only [List.cons_append, charsOfUnits, if_pos h, List.length_cons]
    omega
  | case4 u v us h ih =>
    simp only [List.cons_append, charsOfUnits, if_neg h, List.length_cons] at *
    omega

end BimAudit.Text

namespace BimAudit.Step

open Text (IsDigits IsNumeral isHexDigit hexValue charsOfUnits charOfCode? replacement)

variable {width : Nat} {accepted : List Char → Prop} {s t g rest rest' body after : List Char}
  {gs gs' : List (List Char)}

/-! ### Cutting groups off -/

/-- A group that is a numeral is taken off. -/
theorem hexGroups_append {n : Nat} (hw : 0 < width) (hlen : g.length = width)
    (hg : Text.hex? g = some n) (s : List Char) :
    hexGroups width (g ++ s) = (n :: (hexGroups width s).1, (hexGroups width s).2) := by
  have hle : width ≤ (g ++ s).length := by
    rw [List.length_append, hlen]
    exact Nat.le_add_right _ _
  rw [hexGroups, dif_pos ⟨hw, hle⟩, List.take_left' hlen, List.drop_left' hlen, hg]

/-- Where no group is a numeral the groups end. -/
theorem hexGroups_of_stop (h : ∀ g r, s = g ++ r → g.length = width → Text.hex? g = none) :
    hexGroups width s = ([], s) := by
  rw [hexGroups]
  split
  · next hle =>
    rw [h _ _ (List.take_append_drop width s).symm (List.length_take_of_le hle.2)]
  · rfl

/-- A text cut into groups of `width` characters, as long as they are accepted, and the rest. -/
structure Cut (accepted : List Char → Prop) (width : Nat) (s : List Char) (gs : List (List Char))
    (rest : List Char) : Prop where
  eq : s = gs.flatten ++ rest
  length : ∀ g ∈ gs, g.length = width
  groups : ∀ g ∈ gs, accepted g
  stops : ∀ g r, rest = g ++ r → g.length = width → ¬ accepted g

/-- The text goes on with a plus sign and digits that make up a group together. -/
def Signed (width : Nat) (s : List Char) : Prop :=
  ∃ ds r, s = '+' :: (ds ++ r) ∧ ds.length + 1 = width ∧ IsDigits ds

namespace Cut

theorem nil (h : ∀ g r, s = g ++ r → g.length = width → ¬ accepted g) :
    Cut accepted width s [] s where
  eq := rfl
  length := by simp
  groups := by simp
  stops := h

theorem cons (h : Cut accepted width s gs rest) (hlen : g.length = width) (hg : accepted g) :
    Cut accepted width (g ++ s) (g :: gs) rest where
  eq := by rw [h.eq, List.flatten_cons, List.append_assoc]
  length := List.forall_mem_cons.2 ⟨hlen, h.length⟩
  groups := List.forall_mem_cons.2 ⟨hg, h.groups⟩
  stops := h.stops

theorem tail (h : Cut accepted width s (g :: gs) rest) :
    Cut accepted width (gs.flatten ++ rest) gs rest where
  eq := rfl
  length := (List.forall_mem_cons.1 h.length).2
  groups := (List.forall_mem_cons.1 h.groups).2
  stops := h.stops

theorem eq_cons (h : Cut accepted width s (g :: gs) rest) : s = g ++ (gs.flatten ++ rest) := by
  rw [h.eq, List.flatten_cons, List.append_assoc]

end Cut

/-- Every text is cut somewhere. -/
theorem exists_cut (accepted : List Char → Prop) (hw : 0 < width) (s : List Char) :
    ∃ gs rest, Cut accepted width s gs rest := by
  by_cases h : ∃ g r, s = g ++ r ∧ g.length = width ∧ accepted g
  · obtain ⟨g, r, hs, hlen, hg⟩ := h
    have hshorter : r.length < s.length := by
      rw [hs, List.length_append]
      omega
    obtain ⟨gs, rest, hr⟩ := exists_cut accepted hw r
    exact ⟨g :: gs, rest, hs ▸ hr.cons hlen hg⟩
  · exact ⟨[], s, Cut.nil fun g r hs hlen hg => h ⟨g, r, hs, hlen, hg⟩⟩
termination_by s.length

/-- **The groups that are read** are the numerals at the front of the text. -/
theorem hexGroups_of_cut (hw : 0 < width) (h : Cut IsNumeral width s gs rest) :
    hexGroups width s = (gs.map hexValue, rest) := by
  induction gs generalizing s with
  | nil =>
    have hs : s = rest := h.eq
    rw [hs]
    exact hexGroups_of_stop fun g r hr hlen => Text.hex?_eq_none (h.stops g r hr hlen)
  | cons g gs ih =>
    have hlen := h.length g List.mem_cons_self
    have hg := h.groups g List.mem_cons_self
    rw [h.eq_cons, hexGroups_append hw hlen (Text.hex?_of_isNumeral hg), ih h.tail, List.map_cons]

/-- A plus sign in the place of a digit makes a group that is a numeral. -/
theorem Signed.exists_group (h : Signed width s) :
    ∃ g r, s = g ++ r ∧ g.length = width ∧ IsNumeral g := by
  obtain ⟨ds, r, hs, hlen, hds⟩ := h
  exact ⟨'+' :: ds, r, hs, hlen, .inr ⟨ds, rfl, hds⟩⟩

/-- No digits come first there. -/
theorem Signed.not_isDigits (h : Signed width s) :
    ∀ g r, s = g ++ r → g.length = width → ¬ IsDigits g := by
  obtain ⟨ds, r, rfl, hlen, -⟩ := h
  intro g r' heq hg hdigits
  cases g with
  | nil =>
    rw [List.length_nil] at hg
    omega
  | cons c g =>
    obtain ⟨rfl, -⟩ := List.cons.inj heq
    exact hdigits.head_ne rfl

/-- A numeral that is not made of digits has a sign. -/
theorem signed_of_group {r : List Char} (hlen : g.length = width) (hg : IsNumeral g)
    (hnot : ¬ IsDigits g) : Signed width (g ++ r) := by
  obtain ⟨ds, rfl, hds⟩ := hg.resolve_left hnot
  exact ⟨ds, r, rfl, hlen, hds⟩

/-- **Who accepts less stops first**, and at a group that is not accepted. -/
theorem Cut.exists_more {accepted' : List Char → Prop} (himp : ∀ g, accepted g → accepted' g)
    (h : Cut accepted width s gs rest) (h' : Cut accepted' width s gs' rest') :
    ∃ more, gs' = gs ++ more ∧ rest = more.flatten ++ rest' ∧ ∀ g ∈ more.head?, ¬ accepted g := by
  induction gs generalizing s gs' with
  | nil =>
    have hs : s = rest := h.eq
    refine ⟨gs', rfl, hs.symm.trans h'.eq, ?_⟩
    cases gs' with
    | nil => simp
    | cons g gs' =>
      intro g₁ hg₁
      cases hg₁
      exact h.stops g _ (hs.symm.trans h'.eq_cons) (h'.length g List.mem_cons_self)
  | cons g gs ih =>
    have hlen := h.length g List.mem_cons_self
    have hg := h.groups g List.mem_cons_self
    cases gs' with
    | nil =>
      have hs' : s = rest' := h'.eq
      exact absurd (himp g hg) (h'.stops g _ (hs'.symm.trans h.eq_cons) hlen)
    | cons g' gs' =>
      -- both take the same group off
      have hlen' := h'.length g' List.mem_cons_self
      obtain ⟨rfl, htail⟩ :=
        List.append_inj (h'.eq_cons.symm.trans h.eq_cons) (hlen'.trans hlen.symm)
      have h'tail := h'.tail
      rw [htail] at h'tail
      obtain ⟨more, hmore, hrest, hhead⟩ := ih h.tail h'tail
      exact ⟨more, by rw [hmore, List.cons_append], hrest, hhead⟩

/-- **There is one way to cut a text into groups.** -/
theorem Cut.unique (h : Cut accepted width s gs rest) (h' : Cut accepted width s gs' rest') :
    gs' = gs ∧ rest' = rest := by
  obtain ⟨more, hgs, hrest, hhead⟩ := h.exists_more (fun _ hg => hg) h'
  cases more with
  | nil => exact ⟨by rw [hgs, List.append_nil], hrest.symm⟩
  | cons g more => exact absurd (h'.groups g (by simp [hgs])) (hhead g rfl)

/-- **A reader of numerals goes on behind the digits** exactly if a sign comes next. -/
theorem Cut.exists_signed (h : Cut IsDigits width s gs rest)
    (h' : Cut IsNumeral width s gs' rest') :
    ∃ more, gs' = gs ++ more ∧ rest = more.flatten ++ rest' ∧
      (more = [] ↔ ¬ Signed width rest) := by
  obtain ⟨more, hgs, hrest, hhead⟩ := h.exists_more (fun _ hg => .inl hg) h'
  refine ⟨more, hgs, hrest, ?_⟩
  cases more with
  | nil =>
    refine iff_of_true rfl fun hsigned => ?_
    obtain ⟨g, r, hr, hlen, hg⟩ := hsigned.exists_group
    exact h'.stops g r (hrest.symm.trans hr) hlen hg
  | cons g more =>
    refine iff_of_false (List.cons_ne_nil _ _) fun hsigned => hsigned ?_
    have hmem : g ∈ gs' := by simp [hgs]
    rw [hrest, List.flatten_cons, List.append_assoc]
    exact signed_of_group (h'.length g hmem) (h'.groups g hmem) (hhead g rfl)

/-! ### The end of the groups -/

/-- Ends the groups. -/
def endMarker : List Char := ['\\', 'X', '0', '\\']

/-- The text in front of the first end marker and the text behind it; without a marker all of the
text comes before it. -/
structure Marked (t body after : List Char) : Prop where
  eq : t = body ++ (endMarker ++ after) ∨ t = body ∧ after = []
  first : ∀ p r, t = p ++ (endMarker ++ r) → body.length ≤ p.length

/-- The reader finds the first end marker. -/
theorem marked_splitEndMarker (t : List Char) :
    Marked t (splitEndMarker t).1 (splitEndMarker t).2 := by
  induction t with
  | nil => exact ⟨.inr ⟨rfl, rfl⟩, fun p r _ => Nat.zero_le _⟩
  | cons c t ih =>
    unfold splitEndMarker
    split
    · next h =>
      obtain ⟨r, hr⟩ := List.isPrefixOf_iff_prefix.1 h
      have ht : t.drop 3 = r := by
        have hdrop := congrArg (List.drop 4) hr
        exact hdrop.symm
      exact ⟨.inl (by rw [ht]; exact hr.symm), fun p r _ => Nat.zero_le _⟩
    · next h =>
      refine ⟨?_, ?_⟩
      · rcases ih.eq with heq | ⟨heq, hnil⟩
        · exact .inl (congrArg (c :: ·) heq)
        · exact .inr ⟨congrArg (c :: ·) heq, hnil⟩
      · intro p r hp
        cases p with
        | nil => exact absurd (List.isPrefixOf_iff_prefix.2 ⟨r, hp.symm⟩) h
        | cons d p =>
          have hle := ih.first p r (List.cons.inj hp).2
          simpa using hle

/-- There is one first end marker. -/
theorem Marked.unique {body' after' : List Char} (h : Marked t body after)
    (h' : Marked t body' after') : body = body' ∧ after = after' := by
  rcases h.eq with heq | ⟨heq, hnil⟩ <;> rcases h'.eq with heq' | ⟨heq', hnil'⟩
  · have hlen : body.length = body'.length :=
      Nat.le_antisymm (h.first _ _ heq') (h'.first _ _ heq)
    obtain ⟨hbody, htail⟩ := List.append_inj (heq.symm.trans heq') hlen
    exact ⟨hbody, (List.append_inj htail rfl).2⟩
  · -- one of them has seen a marker, so the other has to stop there too
    have hle := h'.first _ _ heq
    rw [← heq', heq] at hle
    simp only [List.length_append, endMarker, List.length_cons] at hle
    omega
  · have hle := h.first _ _ heq'
    rw [← heq, heq'] at hle
    simp only [List.length_append, endMarker, List.length_cons] at hle
    omega
  · exact ⟨heq.symm.trans heq', hnil.trans hnil'.symm⟩

/-! ### Directives -/

/-- What is read behind `\X\` if a group is what is accepted: a group of two gives a character, and
otherwise the backslash is kept and reading goes on behind it. -/
def ReadsByte (accepted : List Char → Prop) (t out : List Char) : Prop :=
  (∃ g r, t = g ++ r ∧ g.length = 2 ∧ accepted g ∧ out = Char.ofNat (hexValue g) :: decode r) ∨
  ((∀ g r, t = g ++ r → g.length = 2 → ¬ accepted g) ∧ out = '\\' :: decode ('X' :: '\\' :: t))

/-- What is read behind `\X2\` and `\X4\` if a group is what is accepted: the groups give
characters, what comes behind them is kept up to the end marker, and reading goes on behind that. -/
def ReadsGroups (accepted : List Char → Prop) (width : Nat) (chars : List Nat → List Char)
    (t out : List Char) : Prop :=
  ∃ body after gs rest, Marked t body after ∧ Cut accepted width body gs rest ∧
    out = chars (gs.map hexValue) ++ (rest ++ decode after)

/-- Behind the digits comes a plus sign with digits of its own. -/
def ReachesSign (width : Nat) (t : List Char) : Prop :=
  ∃ body after gs rest, Marked t body after ∧ Cut IsDigits width body gs rest ∧ Signed width rest

/-- The characters with these codes. -/
def charsOfCodes (ns : List Nat) : List Char := ns.map fun n => (charOfCode? n).getD replacement

/-! #### One group -/

/-- A group of two is read as a character. -/
theorem decode_byte {n : Nat} {r : List Char} (hlen : g.length = 2) (hg : Text.hex? g = some n) :
    decode ('\\' :: 'X' :: '\\' :: (g ++ r)) = Char.ofNat n :: decode r := by
  have hunit : decodeUnit '\\' ('X' :: '\\' :: (g ++ r)) = ([Char.ofNat n], r) := by
    simp only [decodeUnit, Char.reduceEq, if_false, if_true]
    rw [List.take_left' hlen, List.drop_left' hlen, hg]
    simp only [hlen, if_true]
  rw [decode_cons, hunit]
  rfl

/-- Without such a group the backslash is kept. -/
theorem decode_byte_of_stop (h : ∀ g r, t = g ++ r → g.length = 2 → ¬ IsNumeral g) :
    decode ('\\' :: 'X' :: '\\' :: t) = '\\' :: decode ('X' :: '\\' :: t) := by
  have hunit : decodeUnit '\\' ('X' :: '\\' :: t) = (['\\'], 'X' :: '\\' :: t) := by
    simp only [decodeUnit, Char.reduceEq, if_false, if_true]
    split
    · next n hn =>
      split
      · next hlen =>
        -- two characters that are read as a number
        rw [Text.hex?_eq_none (h _ _ (List.take_append_drop 2 t).symm hlen)] at hn
        cases hn
      · rfl
    · rfl
  rw [decode_cons, hunit]
  rfl

/-- What is read behind `\X\` is a numeral. -/
theorem readsByte (t : List Char) :
    ReadsByte IsNumeral t (decode ('\\' :: 'X' :: '\\' :: t)) := by
  by_cases h : ∃ g r, t = g ++ r ∧ g.length = 2 ∧ IsNumeral g
  · obtain ⟨g, r, ht, hlen, hg⟩ := h
    exact .inl ⟨g, r, ht, hlen, hg, by
      rw [ht, decode_byte hlen (Text.hex?_of_isNumeral hg)]⟩
  · have hstop : ∀ g r, t = g ++ r → g.length = 2 → ¬ IsNumeral g :=
      fun g r ht hlen hg => h ⟨g, r, ht, hlen, hg⟩
    exact .inr ⟨hstop, decode_byte_of_stop hstop⟩

/-- **It would be the same with digits alone** unless a plus sign and a digit come next. -/
theorem readsByte_isDigits_iff (t : List Char) :
    ReadsByte IsDigits t (decode ('\\' :: 'X' :: '\\' :: t)) ↔ ¬ Signed 2 t := by
  constructor
  · intro hreads hsigned
    rcases hreads with ⟨g, r', heq, hg, hdigits, -⟩ | ⟨-, hout⟩
    · exact hsigned.not_isDigits g r' heq hg hdigits
    · -- a sign and one digit give a character below U+0010
      obtain ⟨ds, r, rfl, hlen, hds⟩ := hsigned
      have hgroup := decode_byte (g := '+' :: ds) (r := r) hlen
        (Text.hex?_of_isNumeral (.inr ⟨ds, rfl, hds⟩))
      rw [List.cons_append, hout] at hgroup
      obtain ⟨d, rfl⟩ := List.length_eq_one_iff.1 (Nat.succ.inj hlen)
      have hhead := (List.cons.inj hgroup).1
      rw [Text.hexValue_plus, Text.hexValue_singleton] at hhead
      exact Text.ofNat_digitValue_ne d hhead.symm
  · intro hnot
    rcases readsByte t with ⟨g, r, ht, hlen, hg, hout⟩ | ⟨hstop, hout⟩
    · by_cases hdigits : IsDigits g
      · exact .inl ⟨g, r, ht, hlen, hdigits, hout⟩
      · exact absurd (ht ▸ signed_of_group hlen hg hdigits) hnot
    · exact .inr ⟨fun g r ht hlen hg => hstop g r ht hlen (.inl hg), hout⟩

/-! #### Several groups -/

/-- Groups of two characters or more are at most half as many as characters. -/
theorem two_mul_length_le_flatten (h : ∀ g ∈ gs, 2 ≤ g.length) :
    2 * gs.length ≤ gs.flatten.length := by
  induction gs with
  | nil => simp
  | cons g gs ih =>
    obtain ⟨hg, hgs⟩ := List.forall_mem_cons.1 h
    have hrest := ih hgs
    rw [List.length_cons, List.flatten_cons, List.length_append]
    omega

section Groups

variable {chars : List Nat → List Char} {out : List Char}

/-- There is one way only to take the groups off. -/
theorem readsGroups_iff_of_cut (hmarked : Marked t body after)
    (hcut : Cut accepted width body gs rest) :
    ReadsGroups accepted width chars t out ↔
      out = chars (gs.map hexValue) ++ (rest ++ decode after) := by
  constructor
  · rintro ⟨body', after', gs', rest', hmarked', hcut', hout⟩
    obtain ⟨rfl, rfl⟩ := hmarked.unique hmarked'
    obtain ⟨rfl, rfl⟩ := hcut.unique hcut'
    exact hout
  · exact fun hout => ⟨body, after, gs, rest, hmarked, hcut, hout⟩

/-- The text reaches a sign exactly where its groups of digits end. -/
theorem reachesSign_iff_of_cut (hmarked : Marked t body after)
    (hcut : Cut IsDigits width body gs rest) : ReachesSign width t ↔ Signed width rest := by
  constructor
  · rintro ⟨body', after', gs', rest', hmarked', hcut', hsigned⟩
    obtain ⟨rfl, rfl⟩ := hmarked.unique hmarked'
    obtain ⟨rfl, rfl⟩ := hcut.unique hcut'
    exact hsigned
  · exact fun hsigned => ⟨body, after, gs, rest, hmarked, hcut, hsigned⟩

/-- **It shows whether groups were read or kept**, for each of them has more characters than it
gives. -/
theorem chars_append_eq_iff
    (hchars : ∀ us vs, (chars (us ++ vs)).length ≤ (chars us).length + vs.length)
    {more : List (List Char)} (hlong : ∀ g ∈ more, 2 ≤ g.length) :
    chars ((gs ++ more).map hexValue) ++ rest = chars (gs.map hexValue) ++ (more.flatten ++ rest) ↔
      more = [] := by
  constructor
  · intro heq
    have hlen := congrArg List.length heq
    have hle := hchars (gs.map hexValue) (more.map hexValue)
    have hflat := two_mul_length_le_flatten hlong
    simp only [List.map_append, List.length_append, List.length_map] at hlen hle
    exact List.eq_nil_of_length_eq_zero (by omega)
  · rintro rfl
    simp

/-- **What is read behind `\X2\` and `\X4\` are groups of numerals.** It would be the same with
digits alone unless the text reaches a sign. -/
theorem readsGroups (hw : 1 < width)
    (hchars : ∀ us vs, (chars (us ++ vs)).length ≤ (chars us).length + vs.length)
    (hout : out = chars (hexGroups width (splitEndMarker t).1).1 ++
      ((hexGroups width (splitEndMarker t).1).2 ++ decode (splitEndMarker t).2)) :
    ReadsGroups IsNumeral width chars t out ∧
      (ReadsGroups IsDigits width chars t out ↔ ¬ ReachesSign width t) := by
  have hpos : 0 < width := Nat.lt_of_succ_lt hw
  have hmarked := marked_splitEndMarker t
  obtain ⟨gs, rest, hcut⟩ := exists_cut IsNumeral hpos (splitEndMarker t).1
  obtain ⟨ds, rest', hdigits⟩ := exists_cut IsDigits hpos (splitEndMarker t).1
  obtain ⟨more, hgs, hrest, hmore⟩ := hdigits.exists_signed hcut
  have hlong : ∀ g ∈ more, 2 ≤ g.length := by
    intro g hg
    rw [hcut.length g (by simp [hgs, hg])]
    exact hw
  rw [hexGroups_of_cut hpos hcut] at hout
  refine ⟨(readsGroups_iff_of_cut hmarked hcut).2 hout, ?_⟩
  rw [readsGroups_iff_of_cut hmarked hdigits, reachesSign_iff_of_cut hmarked hdigits, ← hmore, hout,
    hgs, hrest, List.append_assoc]
  exact chars_append_eq_iff hchars hlong

end Groups

/-- Behind `\X2\` groups of four are read as units. -/
theorem decode_units (t : List Char) :
    decode ('\\' :: 'X' :: '2' :: '\\' :: t) = charsOfUnits (hexGroups 4 (splitEndMarker t).1).1 ++
      ((hexGroups 4 (splitEndMarker t).1).2 ++ decode (splitEndMarker t).2) := by
  rw [decode_cons, ← List.append_assoc]
  rfl

/-- Behind `\X4\` groups of eight are read as codes. -/
theorem decode_codes (t : List Char) :
    decode ('\\' :: 'X' :: '4' :: '\\' :: t) = charsOfCodes (hexGroups 8 (splitEndMarker t).1).1 ++
      ((hexGroups 8 (splitEndMarker t).1).2 ++ decode (splitEndMarker t).2) := by
  rw [decode_cons, ← List.append_assoc]
  rfl

theorem length_charsOfCodes_append_le (ns ms : List Nat) :
    (charsOfCodes (ns ++ ms)).length ≤ (charsOfCodes ns).length + ms.length := by
  simp [charsOfCodes]

/-- **The digits that are read.** Behind each of the three directives it is numerals that are read,
in groups of two, four and eight characters: digits, but a plus sign with digits behind it as well.
So the text is what digits alone would give exactly where no such sign comes in the place of a
group. -/
theorem decode_directives (t : List Char) :
    (ReadsByte IsNumeral t (decode ('\\' :: 'X' :: '\\' :: t)) ∧
      (ReadsByte IsDigits t (decode ('\\' :: 'X' :: '\\' :: t)) ↔ ¬ Signed 2 t)) ∧
    (ReadsGroups IsNumeral 4 charsOfUnits t (decode ('\\' :: 'X' :: '2' :: '\\' :: t)) ∧
      (ReadsGroups IsDigits 4 charsOfUnits t (decode ('\\' :: 'X' :: '2' :: '\\' :: t)) ↔
        ¬ ReachesSign 4 t)) ∧
    (ReadsGroups IsNumeral 8 charsOfCodes t (decode ('\\' :: 'X' :: '4' :: '\\' :: t)) ∧
      (ReadsGroups IsDigits 8 charsOfCodes t (decode ('\\' :: 'X' :: '4' :: '\\' :: t)) ↔
        ¬ ReachesSign 8 t)) := by
  refine ⟨⟨readsByte t, readsByte_isDigits_iff t⟩, ?_, ?_⟩
  · exact readsGroups (by decide) Text.length_charsOfUnits_append_le (decode_units t)
  · exact readsGroups (by decide) length_charsOfCodes_append_le (decode_codes t)

/-- **A plus sign may pass for a digit.** Digits alone would leave this text as it is, but a
character comes out. -/
theorem exists_signed_group :
    decode ['\\', 'X', '\\', '+', 'F'] = [Char.ofNat 15] ∧
      ReadsByte IsDigits ['+', 'F'] ['\\', 'X', '\\', '+', 'F'] ∧
      ¬ ReadsByte IsDigits ['+', 'F'] (decode ['\\', 'X', '\\', '+', 'F']) := by
  have hdigits : IsDigits ['F'] := by decide
  have hgroup := decode_byte (g := ['+', 'F']) (n := 15) (r := []) rfl (by decide)
  have hsigned : Signed 2 ['+', 'F'] := ⟨['F'], [], rfl, rfl, hdigits⟩
  refine ⟨?_, .inr ⟨hsigned.not_isDigits, ?_⟩, ?_⟩
  · rw [decode] at hgroup
    exact hgroup
  · simp [decode, decodeUnit]
  · exact fun hreads => (readsByte_isDigits_iff ['+', 'F']).1 hreads hsigned

end BimAudit.Step
