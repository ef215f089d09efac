import BimAudit.Proofs.DecodingByPlace
import BimAudit.Proofs.ParameterScans

/-!
# Parameter texts by their places

The three readers of a parameter text go through its bytes. Each keeps track of literals, where a
look at the next byte tells a doubled apostrophe from the end; what they cut out begins and ends at
places that they have kept.

* `splitParameters`, `referencesIn`, `nextLiterals`: the readers by places.
* `splitParameters_eq`, `referencesIn_eq`, `nextLiterals_eq`: **they never fail**, and read what the
  readers of characters do.
* `KeepsPieces`, `KeepsReferences`, `KeepsDoubled`: what a turn of each of them keeps. The depth of
  the splitter is never more than the number of bytes behind it.
-/

namespace BimAudit.Step.ByPlace

open Text

variable {s p r : List Char} {c : Char}

/-! ### Inside of a literal -/

/-- A byte inside of a literal, given its place: the place to go on at, and whether this is still
inside. -/
def inLiteral (s : List Char) (i : Nat) (b : Char) : Except Misstep (Nat × Bool) := do
  let j ← plus i 1
  if b ≠ '\'' then return (j, true)
  else if (bytes s)[j]? = some '\'' then return (← plus i 2, true)
  else return (j, false)

/-- In a literal every character but the apostrophe is passed over. -/
theorem inLiteral_of_ne {i : Nat} {b : Char} (hi : i + 1 < 2 ^ 64) (hb : b ≠ '\'') :
    inLiteral s i b = .ok (i + 1, true) := by
  unfold inLiteral
  rw [plus_eq hi, ok_bind, if_pos hb, pure_eq_ok]

/-- A doubled apostrophe is passed over too. -/
theorem inLiteral_doubled (hp : byteSize p + 2 < 2 ^ 64) :
    inLiteral (p ++ '\'' :: '\'' :: r) (byteSize p) '\''
      = .ok (byteSize (p ++ ['\'', '\'']), true) := by
  have hnext := (getElem?_bytes_succ_eq_some_iff (show IsAscii '\'' by decide)
    (show IsAscii '\'' by decide) p ('\'' :: r)).2 rfl
  unfold inLiteral
  rw [plus_eq (by omega), ok_bind, if_neg (not_not_intro rfl), if_pos hnext, plus_eq hp, ok_bind,
    pure_eq_ok, byteSize_append]
  rfl

/-- An apostrophe that is not doubled ends the literal. -/
theorem inLiteral_end (hp : byteSize p + 1 < 2 ^ 64) (hr : r.head? ≠ some '\'') :
    inLiteral (p ++ '\'' :: r) (byteSize p) '\'' = .ok (byteSize p + 1, false) := by
  have hnext := mt (getElem?_bytes_succ_eq_some_iff (show IsAscii '\'' by decide)
    (show IsAscii '\'' by decide) p r).1 hr
  unfold inLiteral
  rw [plus_eq hp, ok_bind, if_neg (not_not_intro rfl), if_neg hnext, pure_eq_ok]

/-! ### Cutting at commas -/

/-- How far a parameter text has been cut. -/
structure Cutting where
  depth : Int := 0
  quoted : Bool := false
  /-- Where the parameter in hand begins. -/
  start : Nat := 0
  parts : List (List Char) := []

/-- One turn of the splitter. -/
def cuttingTurn (s : List Char) (i : Nat) (w : Cutting) : Except Misstep (Turn Cutting Empty) := do
  let b ← byteAt s i
  if w.quoted then
    let (j, quoted) ← inLiteral s i b
    return .next j { w with quoted }
  else if b = '\'' then return .next (← plus i 1) { w with quoted := true }
  else if b = '(' then return .next (← plus i 1) { w with depth := ← deepen w.depth 1 }
  else if b = ')' then return .next (← plus i 1) { w with depth := ← deepen w.depth (-1) }
  else if b = ',' ∧ w.depth = 0 then
    let part ← slice s w.start i
    return .next (← plus i 1) { w with parts := w.parts ++ [trim part], start := ← plus i 1 }
  else return .next (← plus i 1) w

/-- The parameters of a parameter text, cut out by their places. -/
def splitParameters (s : List Char) : Except Misstep (List (List Char)) := do
  match ← loop (byteSize s) (cuttingTurn s) 0 {} with
  | .inr e => nomatch e
  | .inl w =>
    let last := trim (← slice s w.start (byteSize s))
    return if last ≠ [] ∨ w.parts ≠ [] then w.parts ++ [last] else w.parts

section Cutting

variable {w : Cutting}

/-- Where the splitter stands. -/
def Cutting.nesting (w : Cutting) : Nesting := ⟨w.depth, w.quoted⟩

/-- The splitter at another position. -/
def Cutting.at (w : Cutting) (n : Nesting) : Cutting :=
  { w with depth := n.depth, quoted := n.quoted }

/-- Cutting passes over the bytes of other characters one by one. -/
theorem passesWide_cuttingTurn (s : List Char) : PassesWide s (cuttingTurn s) := by
  intro i b w hb hwide hi
  have hne : ∀ x, IsAscii x → b ≠ x := fun _ hx => ne_of_not_isAscii hwide hx
  obtain ⟨d, quoted, start, parts⟩ := w
  unfold cuttingTurn
  rw [hb, ok_bind, inLiteral_of_ne hi (hne _ (by decide)), plus_eq hi]
  cases quoted <;>
    simp [hne '\'' (by decide), hne '(' (by decide), hne ')' (by decide), hne ',' (by decide),
      ok_bind, pure_eq_ok]

/-- An apostrophe in a literal, with another one behind it, is passed over. -/
theorem cuttingTurn_doubled (hp : byteSize p + 2 < 2 ^ 64) (hq : w.quoted = true) :
    cuttingTurn (p ++ '\'' :: '\'' :: r) (byteSize p) w
      = .ok (.next (byteSize (p ++ ['\'', '\''])) w) := by
  unfold cuttingTurn
  rw [byteAt_append (by decide), ok_bind, if_pos hq, inLiteral_doubled hp, ok_bind, ← hq]
  rfl

/-- At a comma between two parameters the first one is cut off. -/
theorem cuttingTurn_comma {a b : List Char} (hp : byteSize (a ++ b) + 1 < 2 ^ 64)
    (hstart : w.start = byteSize a) (hq : w.quoted = false) (hd : w.depth = 0) :
    cuttingTurn (a ++ b ++ ',' :: r) (byteSize (a ++ b)) w
      = .ok (.next (byteSize (a ++ b ++ [',']))
        { w with parts := w.parts ++ [trim b], start := byteSize (a ++ b ++ [',']) }) := by
  unfold cuttingTurn
  rw [byteAt_append (by decide), ok_bind, hstart, slice_append, plus_eq hp,
    byteSize_append_of_isAscii (by decide)]
  simp [hq, hd, ok_bind]

/-- At any other character the splitter goes on. -/
theorem cuttingTurn_next (hc : IsAscii c) (hp : byteSize p + 2 < 2 ^ 64)
    (hdepth : w.depth.natAbs + 1 < 2 ^ 31)
    (hdoubled : ¬ (w.quoted = true ∧ c = '\'' ∧ r.head? = some '\''))
    (hcomma : w.nesting.splits c = false) :
    cuttingTurn (p ++ c :: r) (byteSize p) w
      = .ok (.next (byteSize (p ++ [c])) (w.at (w.nesting.next c))) := by
  have hdeeper := deepen_eq (show -2 ^ 31 ≤ w.depth + 1 ∧ w.depth + 1 < 2 ^ 31 by omega)
  have hshallower := deepen_eq (show -2 ^ 31 ≤ w.depth + -1 ∧ w.depth + -1 < 2 ^ 31 by omega)
  obtain ⟨d, quoted, start, parts⟩ := w
  have hends : ¬ (c = ',' ∧ quoted = false ∧ d = 0) := by
    unfold Cutting.nesting Nesting.splits at hcomma
    simpa using hcomma
  unfold cuttingTurn Cutting.at Cutting.nesting Nesting.next
  rw [byteAt_append hc, ok_bind, plus_eq (by omega), byteSize_append_of_isAscii hc]
  simp only [ok_bind, pure_eq_ok, hdeeper, hshallower]
  cases quoted with
  | true =>
    by_cases hquote : c = '\''
    · subst hquote
      rw [inLiteral_end (by omega) fun hr => hdoubled ⟨rfl, rfl, hr⟩]
      rfl
    · rw [inLiteral_of_ne (by omega) hquote]
      simp [hquote, ok_bind]
  | false =>
    by_cases hquote : c = '\''
    · simp [hquote]
    by_cases hopen : c = '('
    · simp [hopen]
    by_cases hclose : c = ')'
    · simp [hclose, Int.sub_eq_add_neg]
    have hcut : ¬ (c = ',' ∧ d = 0) := fun h => hends ⟨h.1, rfl, h.2⟩
    simp [hquote, hopen, hclose, hcut]

/-- What the splitter keeps: the parameter in hand begins between two characters, the depth is no
more than the bytes behind allow for, and what has been cut off and what is ahead are the pieces of
the text. -/
def KeepsPieces (s p r : List Char) (w : Cutting) : Prop :=
  ∃ a b, p = a ++ b ∧ w.start = byteSize a ∧ w.depth.natAbs ≤ byteSize p ∧
    w.parts ++ (b.foldr pushFront (pieces w.nesting r)).map trim = (pieces {} s).map trim

theorem pieces_cons_of_not_splits {n : Nesting} (h : n.splits c = false) (r : List Char) :
    pieces n (c :: r) = pushFront c (pieces (n.next c) r) := by
  rw [pieces, h]
  rfl

/-- A character changes the depth by one at most, so the depth fits its word. -/
theorem natAbs_depth_next_le (n : Nesting) (c : Char) :
    (n.next c).depth.natAbs ≤ n.depth.natAbs + 1 := by
  unfold Nesting.next
  split
  · exact Nat.le_succ _
  split
  · exact Nat.le_succ _
  split
  · simp only; omega
  split
  · simp only; omega
  · exact Nat.le_succ _

/-- The splitter has gone on by one character of the parameter in hand. -/
theorem KeepsPieces.next (h : KeepsPieces s p (c :: r) w) (hc : w.nesting.splits c = false) :
    KeepsPieces s (p ++ [c]) r (w.at (w.nesting.next c)) := by
  obtain ⟨a, b, rfl, hstart, hdepth, hpieces⟩ := h
  refine ⟨a, b ++ [c], List.append_assoc a b [c], hstart, ?_, ?_⟩
  · have hle := natAbs_depth_next_le w.nesting c
    have hpos := c.utf8Size_pos
    rw [byteSize_append, byteSize_cons]
    exact Nat.le_trans hle (Nat.add_le_add hdepth (by omega))
  · rw [← hpieces, pieces_cons_of_not_splits hc, List.foldr_append]
    rfl

theorem KeepsPieces.wide (h : KeepsPieces s p (c :: r) w) (hc : ¬ IsAscii c) :
    KeepsPieces s (p ++ [c]) r w := by
  have hne : ∀ x, IsAscii x → c ≠ x := fun _ hx => ne_of_not_isAscii hc hx
  have hsplits : w.nesting.splits c = false := by
    unfold Nesting.splits
    simp [hne ',' (by decide)]
  have hnext : w.nesting.next c = w.nesting := by
    unfold Nesting.next
    simp [hne '\'' (by decide), hne '(' (by decide), hne ')' (by decide)]
  have hkeeps := h.next hsplits
  rw [hnext] at hkeeps
  exact hkeeps

theorem KeepsPieces.doubled (h : KeepsPieces s p ('\'' :: '\'' :: r) w) (hq : w.quoted = true) :
    KeepsPieces s (p ++ ['\'', '\'']) r w := by
  obtain ⟨a, b, rfl, hstart, hdepth, hpieces⟩ := h
  have hnesting : w.nesting = ⟨w.depth, true⟩ := by
    unfold Cutting.nesting
    rw [hq]
  refine ⟨a, b ++ ['\'', '\''], List.append_assoc a b _, hstart, ?_, ?_⟩
  · rw [byteSize_append]
    omega
  · rw [← hpieces, hnesting, pieces_apostrophe, Bool.not_true, pieces_apostrophe, Bool.not_false,
      List.foldr_append]
    rfl

/-- At a comma of its own level a piece is cut off. -/
theorem KeepsPieces.comma {a b : List Char}
    (hdepth : w.depth.natAbs ≤ byteSize (a ++ b)) (hcomma : w.nesting.splits ',' = true)
    (hpieces : w.parts ++ (b.foldr pushFront (pieces w.nesting (',' :: r))).map trim
      = (pieces {} s).map trim) :
    KeepsPieces s (a ++ b ++ [',']) r
      { w with parts := w.parts ++ [trim b], start := byteSize (a ++ b ++ [',']) } := by
  refine ⟨a ++ b ++ [','], [], (List.append_nil _).symm, rfl, ?_, ?_⟩
  · rw [byteSize_append]
    exact Nat.le_trans hdepth (Nat.le_add_right _ _)
  · rw [← hpieces, pieces, hcomma, if_pos rfl, foldr_pushFront_cons, List.append_nil,
      List.map_cons, List.append_assoc]
    rfl

/-- A turn of the splitter gets on and keeps what it has to keep. -/
theorem getsOn_cuttingTurn (hsize : byteSize s < 2 ^ 31) (hs : s = p ++ c :: r) (hc : IsAscii c)
    (h : KeepsPieces s p (c :: r) w) :
    GetsOn byteSize (cuttingTurn s) (KeepsPieces s) p (c :: r) w := by
  have hlt : byteSize p < byteSize s := hs ▸ byteSize_lt_append_cons p r c
  by_cases hdoubled : w.quoted = true ∧ c = '\'' ∧ r.head? = some '\''
  · obtain ⟨hq, rfl, hr⟩ := hdoubled
    obtain ⟨t, rfl⟩ := List.head?_eq_some_iff.1 hr
    refine ⟨['\'', '\''], t, w, rfl, List.cons_ne_nil _ _, h.doubled hq, ?_⟩
    rw [hs]
    exact cuttingTurn_doubled (by omega) hq
  cases hcomma : w.nesting.splits c with
  | true =>
    obtain ⟨a, b, rfl, hstart, hdepth, hpieces⟩ := h
    obtain ⟨rfl, hq, hd⟩ : c = ',' ∧ w.quoted = false ∧ w.depth = 0 := by
      unfold Nesting.splits Cutting.nesting at hcomma
      simpa only [Bool.and_eq_true, decide_eq_true_eq, Bool.not_eq_true', and_assoc] using hcomma
    refine ⟨[','], r, _, rfl, List.cons_ne_nil _ _, KeepsPieces.comma hdepth hcomma hpieces, ?_⟩
    rw [hs]
    exact cuttingTurn_comma (by omega) hstart hq hd
  | false =>
    refine ⟨[c], r, _, rfl, List.cons_ne_nil _ _, h.next hcomma, ?_⟩
    obtain ⟨-, -, -, -, hdepth, -⟩ := h
    rw [hs]
    exact cuttingTurn_next hc (by omega) (by omega) hdoubled hcomma

/-- **Cutting by places never fails**, and gives the parameters. -/
theorem splitParameters_eq (hsize : byteSize s < 2 ^ 31) :
    splitParameters s = .ok (Step.splitParameters s) := by
  obtain ⟨w, hloop, a, b, hs, hw, -, hpieces⟩ := loop_bytes_through (by omega)
    (passesWide_cuttingTurn s) (fun p c r w _ hc hw => KeepsPieces.wide hw hc)
    (fun p c r w hs hc hw => getsOn_cuttingTurn hsize hs hc hw)
    (show KeepsPieces s [] s {} from ⟨[], [], rfl, rfl, Nat.le_refl _, rfl⟩)
  have hslice : slice s w.start (byteSize s) = .ok b := by
    have hpart := slice_append a b []
    rwa [List.append_nil, ← hs, ← hw] at hpart
  rw [pieces, foldr_pushFront_cons, List.append_nil, List.map_singleton] at hpieces
  unfold splitParameters Step.splitParameters
  rw [hloop, ok_bind, ← hpieces]
  simp only [hslice, ok_bind, pure_eq_ok]
  cases w.parts with
  | nil => cases trim b <;> rfl
  | cons part parts =>
    rw [if_pos (.inr (List.cons_ne_nil part parts))]
    split
    · next h => simp at h
    · rfl

end Cutting

/-! ### Searching for references -/

/-- What has been found of the references of a text. -/
structure Search where
  quoted : Bool := false
  found : List Nat := []

/-- One turn of a walk along digits, which keeps its place. -/
def digitTurn (s : List Char) (i : Nat) (_ : Nat) : Except Misstep (Turn Nat Nat) := do
  if isDigit (← byteAt s i) then
    let j ← plus i 1
    return .next j j
  else return .done i

/-- The place behind the digits at a place. -/
def digitsEnd (s : List Char) (i : Nat) : Except Misstep Nat := do
  match ← loop (byteSize s) (digitTurn s) i i with
  | .inl stop => return stop
  | .inr stop => return stop

/-- One turn of the search. -/
def searchTurn (s : List Char) (i : Nat) (w : Search) : Except Misstep (Turn Search Empty) := do
  let b ← byteAt s i
  if w.quoted then
    let (j, quoted) ← inLiteral s i b
    return .next j { w with quoted }
  else if b = '\'' then return .next (← plus i 1) { w with quoted := true }
  else if b = '#' then
    let start ← plus i 1
    let stop ← digitsEnd s start
    let digits ← slice s start stop
    return .next stop { w with found := w.found ++ (word? digits).toList }
  else return .next (← plus i 1) w

/-- The ids that a parameter text refers to, found by their places. -/
def referencesIn (s : List Char) : Except Misstep (List Nat) := do
  match ← loop (byteSize s) (searchTurn s) 0 {} with
  | .inr e => nomatch e
  | .inl w => return w.found

section Search

variable {w : Search}

theorem isAscii_of_isDigit (h : isDigit c = true) : IsAscii c := by
  unfold isDigit at h
  rw [Bool.and_eq_true, decide_eq_true_eq, decide_eq_true_eq] at h
  exact Nat.lt_of_le_of_lt (show c.toNat ≤ '9'.toNat from h.2) (by decide)

/-- **The search for the end of digits**, whether something else comes behind them or not. -/
theorem loop_digitTurn {ds : List Char} (hsize : byteSize (p ++ (ds ++ r)) < 2 ^ 63)
    (hds : ∀ d ∈ ds, isDigit d = true) (hr : ∀ d ∈ r.head?, isDigit d = false) :
    loop (byteSize (p ++ (ds ++ r))) (digitTurn (p ++ (ds ++ r))) (byteSize p) (byteSize p)
        = .ok (.inl (byteSize (p ++ ds))) ∨
      loop (byteSize (p ++ (ds ++ r))) (digitTurn (p ++ (ds ++ r))) (byteSize p) (byteSize p)
        = .ok (.inr (byteSize (p ++ ds))) := by
  induction ds generalizing p with
  | nil =>
    rw [List.nil_append, List.append_nil]
    cases r with
    | nil => exact .inl (loop_end (Nat.le_of_eq (by rw [List.append_nil])))
    | cons d r =>
      right
      obtain ⟨b, hb, hascii, hwide⟩ := exists_byteAt p r d
      have hdigit : isDigit b = false := by
        by_cases hd : IsAscii d
        · rw [hascii hd]
          exact hr d rfl
        · exact Bool.eq_false_iff.2 (mt isAscii_of_isDigit (hwide hd))
      refine loop_done ?_ ?_
      · exact byteSize_lt_append_cons _ _ d
      · unfold digitTurn
        rw [hb, ok_bind, hdigit]
        rfl
  | cons d ds ih =>
    have hascii : IsAscii d := isAscii_of_isDigit (hds d List.mem_cons_self)
    have hlt : byteSize p < byteSize (p ++ (d :: ds ++ r)) := by
      rw [byteSize_append, List.cons_append, byteSize_cons, utf8Size_of_isAscii hascii]
      omega
    have hturn : digitTurn (p ++ (d :: ds ++ r)) (byteSize p) (byteSize p)
        = .ok (.next (byteSize (p ++ [d])) (byteSize (p ++ [d]))) := by
      unfold digitTurn
      rw [List.cons_append, byteAt_append hascii, ok_bind, if_pos (hds d List.mem_cons_self),
        plus_eq (by omega), ok_bind, byteSize_append_of_isAscii hascii, pure_eq_ok]
    have hrest := ih (p := p ++ [d])
    rw [loop_next hlt hturn (by rw [byteSize_append_of_isAscii hascii]; omega)]
    rw [List.append_assoc, List.append_assoc] at hrest
    exact hrest hsize fun c hc => hds c (List.mem_cons_of_mem _ hc)

/-- The digits of a reference end where the next character is none. -/
theorem digitsEnd_eq {ds : List Char} (hsize : byteSize (p ++ (ds ++ r)) < 2 ^ 63)
    (hds : ∀ d ∈ ds, isDigit d = true) (hr : ∀ d ∈ r.head?, isDigit d = false) :
    digitsEnd (p ++ (ds ++ r)) (byteSize p) = .ok (byteSize (p ++ ds)) := by
  unfold digitsEnd
  rcases loop_digitTurn hsize hds hr with h | h <;> rw [h] <;> rfl

/-- What the search keeps: what has been found and what is ahead are the references of the text. -/
def KeepsReferences (s : List Char) (_ r : List Char) (w : Search) : Prop :=
  w.found ++ references w.quoted r = Step.referencesIn s

/-- A turn that takes what it passes over keeps the references. -/
theorem KeepsReferences.next {t q : List Char} {w' : Search} (h : KeepsReferences s p r w)
    (heq : w'.found ++ references w'.quoted t = w.found ++ references w.quoted r) :
    KeepsReferences s q t w' := heq.trans h

theorem passesWide_searchTurn (s : List Char) : PassesWide s (searchTurn s) := by
  intro i b w hb hwide hi
  have hquote := ne_of_not_isAscii hwide (show IsAscii '\'' by decide)
  have hsign := ne_of_not_isAscii hwide (show IsAscii '#' by decide)
  obtain ⟨quoted, found⟩ := w
  unfold searchTurn
  rw [hb, ok_bind, inLiteral_of_ne hi hquote, plus_eq hi]
  cases quoted <;> simp [hquote, hsign, ok_bind, pure_eq_ok]

theorem references_of_ne (hquote : c ≠ '\'') (hsign : c ≠ '#') (quoted : Bool) (r : List Char) :
    references quoted (c :: r) = references quoted r := by
  simp [references, hquote, hsign]

/-- Inside of a literal the search goes on behind the character, or behind two apostrophes. -/
theorem getsOn_searchTurn_inside {found : List Nat} (hp : byteSize p + 2 < 2 ^ 63)
    (hs : s = p ++ c :: r) (hc : IsAscii c) (h : KeepsReferences s p (c :: r) ⟨true, found⟩) :
    GetsOn byteSize (searchTurn s) (KeepsReferences s) p (c :: r) ⟨true, found⟩ := by
  subst hs
  by_cases hquote : c = '\''
  · subst hquote
    by_cases hr : r.head? = some '\''
    · obtain ⟨t, rfl⟩ := List.head?_eq_some_iff.1 hr
      refine ⟨['\'', '\''], t, ⟨true, found⟩, rfl, List.cons_ne_nil _ _, ?_, ?_⟩
      · exact h.next (by simp [references])
      · unfold searchTurn
        rw [byteAt_append hc, ok_bind, if_pos rfl, inLiteral_doubled (by omega)]
        rfl
    · refine ⟨['\''], r, ⟨false, found⟩, rfl, List.cons_ne_nil _ _, ?_, ?_⟩
      · exact h.next (by simp [references])
      · unfold searchTurn
        rw [byteAt_append hc, ok_bind, if_pos rfl, inLiteral_end (by omega) hr,
          byteSize_append_of_isAscii hc]
        rfl
  · refine ⟨[c], r, ⟨true, found⟩, rfl, List.cons_ne_nil _ _, ?_, ?_⟩
    · exact h.next (by simp [references, hquote])
    · unfold searchTurn
      rw [byteAt_append hc, ok_bind, if_pos rfl, inLiteral_of_ne (by omega) hquote,
        byteSize_append_of_isAscii hc]
      rfl

/-- At a sign the search goes on behind the digits of the id. -/
theorem getsOn_searchTurn_sign {found : List Nat} (hsize : byteSize (p ++ '#' :: r) < 2 ^ 63)
    (h : KeepsReferences s p ('#' :: r) ⟨false, found⟩) :
    GetsOn byteSize (searchTurn (p ++ '#' :: r)) (KeepsReferences s) p ('#' :: r)
      ⟨false, found⟩ := by
  have hc : IsAscii '#' := by decide
  have hp : byteSize p + 1 < 2 ^ 64 := by
    have hlt := byteSize_lt_append_cons p r '#'
    omega
  -- the id is all digits behind the sign
  let ds := r.takeWhile isDigit
  let t := r.dropWhile isDigit
  have hr : r = ds ++ t := List.takeWhile_append_dropWhile.symm
  have hds : ∀ d ∈ ds, isDigit d = true := List.all_eq_true.1 List.all_takeWhile
  have ht : ∀ d ∈ t.head?, isDigit d = false := by
    intro d hd
    have hhead := List.head?_dropWhile_not isDigit r
    rw [Option.mem_def.1 hd] at hhead
    exact hhead
  have hplus : ds.head? ≠ some '+' := by
    intro hhead
    exact absurd (hds _ (List.mem_of_head? hhead)) (by decide)
  have htext : p ++ '#' :: r = (p ++ ['#']) ++ (ds ++ t) := by
    rw [← hr, List.append_assoc]
    rfl
  have hstop : digitsEnd (p ++ '#' :: r) (byteSize p + 1)
      = .ok (byteSize (p ++ ['#'] ++ ds)) := by
    rw [← byteSize_append_of_isAscii hc, htext]
    exact digitsEnd_eq (htext ▸ hsize) hds ht
  have hslice : slice (p ++ '#' :: r) (byteSize p + 1) (byteSize (p ++ ['#'] ++ ds))
      = .ok ds := by
    rw [← byteSize_append_of_isAscii hc, htext, ← List.append_assoc]
    exact slice_append (p ++ ['#']) ds t
  refine ⟨'#' :: ds, t, ⟨false, found ++ (wordDigits? ds).toList⟩, by rw [hr]; rfl,
    List.cons_ne_nil _ _, ?_, ?_⟩
  · have hskip : references false r = references false t := by
      rw [hr]
      exact references_digits hds t
    exact h.next (by simp [references, hskip, ds])
  · unfold searchTurn
    rw [byteAt_append hc, ok_bind, if_neg Bool.false_ne_true, if_neg (by decide), if_pos rfl,
      plus_eq hp, ok_bind, hstop, ok_bind, hslice, ok_bind, word?_of_head_ne hplus, pure_eq_ok,
      List.append_assoc]
    rfl

/-- Outside of literals the search goes on behind the character, or behind the digits of an id. -/
theorem getsOn_searchTurn_outside {found : List Nat} (hsize : byteSize s < 2 ^ 63)
    (hs : s = p ++ c :: r) (hc : IsAscii c) (h : KeepsReferences s p (c :: r) ⟨false, found⟩) :
    GetsOn byteSize (searchTurn s) (KeepsReferences s) p (c :: r) ⟨false, found⟩ := by
  subst hs
  have hp : byteSize p + 1 < 2 ^ 64 := by
    have hlt := byteSize_lt_append_cons p r c
    omega
  by_cases hquote : c = '\''
  · subst hquote
    refine ⟨['\''], r, ⟨true, found⟩, rfl, List.cons_ne_nil _ _, ?_, ?_⟩
    · exact h.next (by simp [references])
    · unfold searchTurn
      rw [byteAt_append hc, ok_bind, if_neg Bool.false_ne_true, if_pos rfl, plus_eq hp,
        byteSize_append_of_isAscii hc]
      rfl
  by_cases hsign : c = '#'
  · subst hsign
    exact getsOn_searchTurn_sign hsize h
  · refine ⟨[c], r, ⟨false, found⟩, rfl, List.cons_ne_nil _ _, ?_, ?_⟩
    · exact h.next (by simp [references, hquote, hsign])
    · unfold searchTurn
      rw [byteAt_append hc, ok_bind, if_neg Bool.false_ne_true, if_neg hquote, if_neg hsign,
        plus_eq hp, byteSize_append_of_isAscii hc]
      rfl

/-- **Searching for references by places never fails**, and finds the references. -/
theorem referencesIn_eq (hsize : byteSize s < 2 ^ 31) :
    referencesIn s = .ok (Step.referencesIn s) := by
  have hturn : ∀ p c r w, s = p ++ c :: r → IsAscii c → KeepsReferences s p (c :: r) w →
      GetsOn byteSize (searchTurn s) (KeepsReferences s) p (c :: r) w := by
    rintro p c r ⟨quoted, found⟩ hs hc hw
    have hlt : byteSize p < byteSize s := hs ▸ byteSize_lt_append_cons p r c
    cases quoted with
    | true => exact getsOn_searchTurn_inside (by omega) hs hc hw
    | false => exact getsOn_searchTurn_outside (by omega) hs hc hw
  have hpass : ∀ p c r w, s = p ++ c :: r → ¬ IsAscii c → KeepsReferences s p (c :: r) w →
      KeepsReferences s (p ++ [c]) r w := by
    intro p c r w _ hc hw
    refine hw.next ?_
    rw [references_of_ne (ne_of_not_isAscii hc (by decide)) (ne_of_not_isAscii hc (by decide))]
  obtain ⟨w, hloop, hw⟩ := loop_bytes_through (by omega) (passesWide_searchTurn s) hpass hturn
    (show KeepsReferences s [] s {} from rfl)
  unfold KeepsReferences at hw
  rw [references, List.append_nil] at hw
  unfold referencesIn
  rw [hloop, ok_bind, ← hw]
  rfl

end Search

/-! ### One literal after the other -/

/-- One turn inside of a literal, which ends at the apostrophe that ends the literal. -/
def literalTurn (s : List Char) (i : Nat) (_ : Unit) : Except Misstep (Turn Unit Nat) := do
  let (j, inside) ← inLiteral s i (← byteAt s i)
  return if inside then .next j () else .done i

/-- The next literal from a place on, decoded, and the place to go on at. Behind the last literal
there is none, and behind an apostrophe without an end the whole text has been read. -/
def nextLiteral (s : List Char) (place : Nat) : Except Misstep (Option (List Char) × Nat) := do
  if byteSize s < place then throw .place
  match ((bytes s).drop place).findIdx? (· = '\'') with
  | none => return (none, place)
  | some k =>
    let start ← plus (← plus place k) 1
    match ← loop (byteSize s) (literalTurn s) start () with
    | .inr stop => return (some (← decode (← slice s start stop)), ← plus stop 1)
    | .inl () => return (none, byteSize s)

/-- What so many calls find from a place on, one after the other. -/
def nextLiterals (s : List Char) : Nat → Nat → Except Misstep (List (Option (List Char)))
  | 0, _ => return []
  | n + 1, place => do
    let (found, place) ← nextLiteral s place
    return found :: (← nextLiterals s n place)

section Literals

theorem not_mem_bytes {x : Char} (hx : IsAscii x) (h : x ∉ s) : x ∉ bytes s := by
  induction s with
  | nil => exact List.not_mem_nil
  | cons c s ih =>
    rw [List.mem_cons, not_or] at h
    have hsplit : bytes (c :: s) = bytes [c] ++ bytes s := bytes_append [c] s
    rw [hsplit, List.mem_append, not_or]
    refine ⟨fun hmem => ?_, ih h.2⟩
    by_cases hc : IsAscii c
    · rw [bytes_cons_of_isAscii hc] at hmem
      exact h.1 (List.mem_singleton.1 hmem)
    · exact not_isAscii_of_mem_bytes hc hmem hx

theorem findIdx?_bytes_eq_none {q : List Char} (hq : '\'' ∉ q) :
    (bytes q).findIdx? (· = '\'') = none := by
  rw [List.findIdx?_eq_none_iff]
  intro b hb
  refine decide_eq_false ?_
  rintro rfl
  exact not_mem_bytes (by decide) hq hb

/-- The first apostrophe among the bytes is the first one of the text. -/
theorem findIdx?_bytes {q t : List Char} (hq : '\'' ∉ q) :
    (bytes (q ++ '\'' :: t)).findIdx? (· = '\'') = some (byteSize q) := by
  rw [bytes_append, bytes_cons_of_isAscii (by decide), List.findIdx?_append,
    findIdx?_bytes_eq_none hq, List.findIdx?_cons, decide_eq_true rfl, if_pos rfl, length_bytes]
  show some (0 + byteSize q) = _
  rw [Nat.zero_add]

theorem passesWide_literalTurn (s : List Char) : PassesWide s (literalTurn s) := by
  intro i b w hb hwide hi
  unfold literalTurn
  rw [hb, ok_bind, inLiteral_of_ne hi (ne_of_not_isAscii hwide (by decide))]
  rfl

/-- What a reader keeps inside of a literal that begins behind `front`: apostrophes have come only
two in a row. -/
def KeepsDoubled (front p _ : List Char) (_ : Unit) : Prop :=
  ∃ b, p = front ++ b ∧ isDoubled b = true

/-- Where a literal that begins behind `front` ends. -/
def EndsLiteral (front s : List Char) (i : Nat) : Prop :=
  ∃ body rest, s = front ++ (body ++ '\'' :: rest) ∧ isDoubled body = true ∧
    rest.head? ≠ some '\'' ∧ i = byteSize (front ++ body)

theorem KeepsDoubled.append {front t q : List Char} (h : KeepsDoubled front p r ())
    (hq : isDoubled q = true) : KeepsDoubled front (p ++ q) t () := by
  obtain ⟨b, rfl, hb⟩ := h
  exact ⟨b ++ q, List.append_assoc front b q, isDoubled_append hb hq⟩

/-- A turn inside of a literal gets on, or the literal ends there. -/
theorem getsOn_literalTurn {front : List Char} (hp : byteSize p + 2 < 2 ^ 64)
    (hs : s = p ++ c :: r) (hc : IsAscii c) (h : KeepsDoubled front p (c :: r) ()) :
    GetsOn byteSize (literalTurn s) (KeepsDoubled front) p (c :: r) () ∨
      ∃ i, literalTurn s (byteSize p) () = .ok (.done i) ∧ EndsLiteral front s i := by
  subst hs
  by_cases hquote : c = '\''
  · subst hquote
    by_cases hr : r.head? = some '\''
    · left
      obtain ⟨t, rfl⟩ := List.head?_eq_some_iff.1 hr
      refine ⟨['\'', '\''], t, (), rfl, List.cons_ne_nil _ _, h.append rfl, ?_⟩
      unfold literalTurn
      rw [byteAt_append hc, ok_bind, inLiteral_doubled hp]
      rfl
    · right
      obtain ⟨b, rfl, hb⟩ := h
      refine ⟨_, ?_, b, r, List.append_assoc front b _, hb, hr, rfl⟩
      unfold literalTurn
      rw [byteAt_append hc, ok_bind, inLiteral_end (by omega) hr]
      rfl
  · left
    have hsingle : isDoubled [c] = true := isDoubled_of_not_mem (by simpa using Ne.symm hquote)
    refine ⟨[c], r, (), rfl, List.cons_ne_nil _ _, h.append hsingle, ?_⟩
    unfold literalTurn
    rw [byteAt_append hc, ok_bind, inLiteral_of_ne (by omega) hquote, byteSize_append_of_isAscii hc]
    rfl

/-- A literal that begins behind `front` is read to its end, or to the end of the text. -/
theorem loop_literalTurn {front t : List Char} (hsize : byteSize (front ++ t) < 2 ^ 63) :
    (loop (byteSize (front ++ t)) (literalTurn (front ++ t)) (byteSize front) () = .ok (.inl ()) ∧
      splitLiteral t = none) ∨
    ∃ body rest, t = body ++ '\'' :: rest ∧ splitLiteral t = some (body, rest) ∧
      loop (byteSize (front ++ t)) (literalTurn (front ++ t)) (byteSize front) ()
        = .ok (.inr (byteSize (front ++ body))) := by
  have hturn : ∀ p c r w, front ++ t = p ++ c :: r → IsAscii c → KeepsDoubled front p (c :: r) w →
      GetsOn byteSize (literalTurn (front ++ t)) (KeepsDoubled front) p (c :: r) w ∨
        ∃ i, literalTurn (front ++ t) (byteSize p) w = .ok (.done i) ∧
          EndsLiteral front (front ++ t) i := by
    intro p c r w hs hc h
    have hlt : byteSize p < byteSize (front ++ t) := hs ▸ byteSize_lt_append_cons p r c
    exact getsOn_literalTurn (by omega) hs hc h
  have hpass : ∀ p c r w, front ++ t = p ++ c :: r → ¬ IsAscii c →
      KeepsDoubled front p (c :: r) w → KeepsDoubled front (p ++ [c]) r w := by
    intro p c r w _ hc h
    have hne := ne_of_not_isAscii hc (show IsAscii '\'' by decide)
    exact h.append (isDoubled_of_not_mem (by simpa using Ne.symm hne))
  rcases loop_bytes hsize (passesWide_literalTurn _) _ hpass hturn rfl
      (show KeepsDoubled front front t () from ⟨[], (List.append_nil front).symm, rfl⟩)
    with ⟨w, hloop, b, hb, hdoubled⟩ | ⟨i, hloop, body, rest, ht, hbody, hrest, rfl⟩
  · left
    refine ⟨hloop, ?_⟩
    rw [List.append_cancel_left hb]
    exact splitLiteral_eq_none_iff.2 hdoubled
  · right
    have ht := List.append_cancel_left ht
    exact ⟨body, rest, ht, splitLiteral_eq_some_iff.2 ⟨ht, hbody, hrest⟩, hloop⟩

/-- **A call never fails.** It finds the first literal of what is ahead, and goes on at a place
where the others are ahead. -/
theorem exists_nextLiteral (hsize : byteSize (p ++ r) < 2 ^ 31) :
    ∃ p' r', p ++ r = p' ++ r' ∧ literals r' = (literals r).tail ∧
      nextLiteral (p ++ r) (byteSize p) = .ok ((literals r).head?, byteSize p') := by
  have hplace : ¬ byteSize (p ++ r) < byteSize p := by
    rw [byteSize_append]
    omega
  have hahead : (bytes (p ++ r)).drop (byteSize p) = bytes r := by
    rw [bytes_append]
    exact List.drop_left' (length_bytes p)
  unfold nextLiteral
  rw [if_neg hplace, hahead]
  by_cases hmem : '\'' ∈ r
  · obtain ⟨q, t, rfl, hq⟩ := List.eq_append_cons_of_mem hmem
    let front := p ++ q ++ ['\'']
    have htext : p ++ (q ++ '\'' :: t) = front ++ t := by simp [front]
    have hfront : byteSize p + byteSize q + 1 = byteSize front := by
      rw [← byteSize_append]
      exact (byteSize_append_of_isAscii (by decide) (p ++ q)).symm
    have hle : byteSize front ≤ byteSize (p ++ (q ++ '\'' :: t)) := by
      rw [htext, byteSize_append front t]
      exact Nat.le_add_right _ _
    have hliterals : literals (q ++ '\'' :: t) = literals ('\'' :: t) :=
      skip_append (fun c => c ≠ '\'') (fun _ r hc => literals_cons hc r)
        (fun c hc heq => hq (heq ▸ hc)) _
    rw [findIdx?_bytes hq]
    simp only
    rw [plus_eq (by omega), ok_bind, plus_eq (by omega), ok_bind, hfront, hliterals,
      literals_apostrophe, htext]
    rcases loop_literalTurn (t := t) (by rw [← htext]; omega) with
      ⟨hloop, hsplit⟩ | ⟨body, rest, rfl, hsplit, hloop⟩
    · rw [hloop, hsplit]
      exact ⟨front ++ t, [], (List.append_nil _).symm, literals_nil, rfl⟩
    · have hslice : slice (front ++ (body ++ '\'' :: rest)) (byteSize front)
          (byteSize (front ++ body)) = .ok body := by
        rw [← List.append_assoc]
        exact slice_append front body _
      rw [hloop, hsplit, ok_bind]
      refine ⟨front ++ body ++ ['\''], rest, by simp, rfl, ?_⟩
      rw [htext, ← List.append_assoc, byteSize_append (front ++ body),
        byteSize_append front] at hsize
      simp only [hslice, ok_bind]
      rw [decode_eq (by omega), ok_bind, byteSize_append_of_isAscii (by decide), byteSize_append,
        plus_eq (by omega), ok_bind]
      rfl
  · have hnone : literals r = [] := literals_of_not_mem hmem
    refine ⟨p, r, rfl, by rw [hnone]; rfl, ?_⟩
    rw [findIdx?_bytes_eq_none hmem, hnone]
    rfl

/-- **Calls never fail, however many there are.** They find the literals, and nothing from then
on. -/
theorem nextLiterals_eq (n : Nat) (hsize : byteSize (p ++ r) < 2 ^ 31) :
    nextLiterals (p ++ r) n (byteSize p) = .ok ((List.range n).map fun k => (literals r)[k]?) := by
  induction n generalizing p r with
  | zero => rfl
  | succ n ih =>
    obtain ⟨p', r', hs, htail, hnext⟩ := exists_nextLiteral hsize
    have hrest := ih (p := p') (r := r') (hs ▸ hsize)
    rw [htail, ← hs] at hrest
    unfold nextLiterals
    rw [hnext, ok_bind]
    simp only [hrest, ok_bind]
    rw [List.range_succ_eq_map, List.map_cons, List.map_map, pure_eq_ok]
    congr 3
    · exact List.head?_eq_getElem?
    · funext k
      exact List.getElem?_tail

end Literals

end BimAudit.Step.ByPlace
