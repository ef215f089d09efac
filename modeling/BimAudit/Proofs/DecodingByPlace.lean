import BimAudit.Proofs.DigitGroups
import BimAudit.Proofs.TextPlaces

/-!
# Encoded strings by their places

An encoded string is decoded character by character. A directive is told by a look at the next three
characters; its groups of digits are then cut off by bytes, as long as there are enough of them and
the cut is between two characters.

* `groups`, `takeUntilEndMarker`, `decode`: the reading of groups of digits, of what comes before an
  end marker, and of an encoded string, by places.
* `groups_eq`, `takeUntilEndMarker_eq`: **they never fail**, and read what `hexGroups` and
  `splitEndMarker` do.
* `decode_eq`: **decoding by places never fails**, and gives the text that the string stands for.
-/

namespace BimAudit.Step.ByPlace

open Text

variable {s p r : List Char} {c : Char}

/-! ### Groups of digits -/

/-- Reads groups of `width` bytes from the front while they are numerals. -/
def groups (width : Nat) (s : List Char) : Except Misstep (List Nat × List Char) :=
  if width ≤ byteSize s ∧ (cut? s width).isSome then do
    let front ← slice s 0 width
    match hex? front with
    | none => return ([], s)
    | some n =>
      let rest ← slice s width (byteSize s)
      if rest.length < s.length then
        let (ns, rest) ← groups width rest
        return (n :: ns, rest)
      else throw .standstill
  else return ([], s)
termination_by s.length

/-- A text of ASCII has as many bytes as characters. -/
theorem byteSize_of_isAscii (h : ∀ c ∈ p, IsAscii c) : byteSize p = p.length := by
  induction p with
  | nil => rfl
  | cons c p ih =>
    rw [byteSize_cons, utf8Size_of_isAscii (h c List.mem_cons_self), List.length_cons,
      ih fun d hd => h d (List.mem_cons_of_mem _ hd), Nat.add_comm]

theorem isAscii_of_isHexDigit (h : isHexDigit c = true) : IsAscii c := by
  unfold IsAscii
  rw [← isSome_hexDigit?, hexDigit?_eq] at h
  grind

/-- Numerals are ASCII. -/
theorem isAscii_of_hex? {n : Nat} (h : hex? p = some n) : ∀ c ∈ p, IsAscii c := by
  have hnumeral : IsNumeral p := by
    refine Classical.byContradiction fun hnot => ?_
    rw [hex?_eq_none hnot] at h
    cases h
  rcases hnumeral with hds | ⟨ds, rfl, hds⟩
  · exact fun c hc => isAscii_of_isHexDigit (hds.2 c hc)
  · intro c hc
    rcases List.mem_cons.1 hc with rfl | hc
    · decide
    · exact isAscii_of_isHexDigit (hds.2 c hc)

/-- A numeral of so many characters is cut off by so many bytes. -/
theorem cut?_of_hex? {n width : Nat} (h : hex? p = some n) (hp : p.length = width)
    (r : List Char) : cut? (p ++ r) width = some (p, r) := by
  rw [← hp, ← byteSize_of_isAscii (isAscii_of_hex? h)]
  exact cut?_append p r

theorem slice_front (p q : List Char) : slice (p ++ q) 0 (byteSize p) = .ok p :=
  slice_append [] p q

theorem slice_rest (p q : List Char) :
    slice (p ++ q) (byteSize p) (byteSize (p ++ q)) = .ok q := by
  have hslice := slice_append p q []
  rwa [List.append_nil] at hslice

/-- **Reading groups by places never fails.** A group of that many bytes is one of that many
characters, since numerals are ASCII. -/
theorem groups_eq {width : Nat} (hw : 0 < width) (s : List Char) :
    groups width s = .ok (hexGroups width s) := by
  induction hn : s.length using Nat.strongRecOn generalizing s with
  | ind n ih =>
    rw [groups]
    by_cases hcut : width ≤ byteSize s ∧ (cut? s width).isSome = true
    · obtain ⟨⟨front, rest⟩, hparts⟩ := Option.isSome_iff_exists.1 hcut.2
      obtain ⟨rfl, rfl⟩ := cut?_eq_some_iff.1 hparts
      rw [if_pos hcut, slice_front, ok_bind]
      cases hhex : hex? front with
      | none =>
        rw [hexGroups_of_stop]
        · rfl
        intro g t hg hlength
        cases hgroup : hex? g with
        | none => rfl
        | some m =>
          -- then it is the front itself
          rw [hg, cut?_of_hex? hgroup hlength] at hparts
          cases hparts
          rw [hhex] at hgroup
          cases hgroup
      | some m =>
        have hlength : front.length = byteSize front :=
          (byteSize_of_isAscii (isAscii_of_hex? hhex)).symm
        have hlt : rest.length < (front ++ rest).length := by
          rw [List.length_append]
          omega
        simp only [slice_rest, ok_bind, if_pos hlt, ih rest.length (hn ▸ hlt) rest rfl]
        rw [hexGroups_append hw hlength hhex]
        rfl
    · rw [if_neg hcut, hexGroups_of_stop]
      · rfl
      rintro g t rfl hlength
      cases hgroup : hex? g with
      | none => rfl
      | some m =>
        have hparts := cut?_of_hex? hgroup hlength t
        refine absurd ⟨?_, ?_⟩ hcut
        · rw [← (cut?_eq_some_iff.1 hparts).2, byteSize_append]
          exact Nat.le_add_right _ _
        · rw [hparts]
          rfl

/-! ### End markers -/

/-- The character at a place, counted in characters. -/
def charAt (s : List Char) (i : Nat) : Except Misstep Char := require .place s[i]?

/-- The characters from one place to another. -/
def charSlice (s : List Char) (i j : Nat) : Except Misstep (List Char) :=
  if j < i then .error .order
  else if s.length < j then .error .place
  else .ok ((s.take j).drop i)

/-- One turn of the search for an end marker. -/
def markerTurn (s : List Char) (i : Nat) (_ : Unit) : Except Misstep (Turn Unit Nat) := do
  let c ← charAt s i
  let i₁ ← plus i 1
  let i₂ ← plus i 2
  let i₃ ← plus i 3
  if c = '\\' ∧ s[i₁]? = some 'X' ∧ s[i₂]? = some '0' ∧ s[i₃]? = some '\\' then return .done i
  else return .next i₁ ()

/-- What comes from a place on before an end marker, and the place behind it. -/
def takeUntilEndMarker (s : List Char) (start : Nat) : Except Misstep (List Char × Nat) := do
  match ← loop s.length (markerTurn s) start () with
  | .inr i => return (← charSlice s start i, ← plus i 4)
  | .inl () => return (← charSlice s start s.length, s.length)

theorem charAt_append (p r : List Char) (c : Char) : charAt (p ++ c :: r) p.length = .ok c := by
  unfold charAt
  rw [List.getElem?_append_right (Nat.le_refl _), Nat.sub_self]
  rfl

/-- A look ahead. -/
theorem getElem?_append_length_add (p r : List Char) (k : Nat) :
    (p ++ r)[p.length + k]? = r[k]? := by
  rw [List.getElem?_append_right (Nat.le_add_right _ _), Nat.add_sub_cancel_left]

/-- A slice of characters is what lies between its places. -/
theorem charSlice_append (p q r : List Char) :
    charSlice (p ++ (q ++ r)) p.length (p ++ q).length = .ok q := by
  unfold charSlice
  rw [if_neg (by simp), if_neg (by simp), ← List.append_assoc, List.take_left' rfl,
    List.drop_left' rfl]

/-- The end of a run of codes is told by four characters. -/
theorem isPrefixOf_endMarker_iff : endMarker.isPrefixOf (c :: r) = true ↔
    c = '\\' ∧ r[0]? = some 'X' ∧ r[1]? = some '0' ∧ r[2]? = some '\\' := by
  unfold endMarker
  rw [List.isPrefixOf_iff_prefix, List.cons_prefix_cons]
  match r with
  | [] => simp
  | [x] => simp
  | [x, y] => simp
  | x :: y :: z :: t =>
    simp only [List.cons_prefix_cons, List.nil_prefix, and_true, List.getElem?_cons_zero,
      List.getElem?_cons_succ, Option.some_inj]
    constructor
    · rintro ⟨rfl, rfl, rfl, rfl⟩
      exact ⟨rfl, rfl, rfl, rfl⟩
    · rintro ⟨rfl, rfl, rfl, rfl⟩
      exact ⟨rfl, rfl, rfl, rfl⟩

/-- A turn of the search looks for the end of a run at one place. -/
theorem markerTurn_eq (hlength : (p ++ c :: r).length < 2 ^ 63) :
    markerTurn (p ++ c :: r) p.length () =
      if endMarker.isPrefixOf (c :: r) then .ok (.done p.length)
      else .ok (.next (p ++ [c]).length ()) := by
  rw [List.length_append] at hlength
  have hlook : ∀ k, (p ++ c :: r)[p.length + (k + 1)]? = r[k]? := by
    intro k
    rw [getElem?_append_length_add, List.getElem?_cons_succ]
  unfold markerTurn
  rw [charAt_append, ok_bind, plus_eq (by omega), ok_bind, plus_eq (by omega), ok_bind,
    plus_eq (by omega), ok_bind]
  simp only [hlook, isPrefixOf_endMarker_iff, pure_eq_ok, List.length_append, List.length_singleton]

/-- The search comes to the first end marker, or to the end of the text. -/
theorem loop_markerTurn (hlength : (p ++ r).length < 2 ^ 63) :
    (loop (p ++ r).length (markerTurn (p ++ r)) p.length ()
        = .ok (.inr (p ++ (splitEndMarker r).1).length) ∧
      r = (splitEndMarker r).1 ++ (endMarker ++ (splitEndMarker r).2)) ∨
    (loop (p ++ r).length (markerTurn (p ++ r)) p.length () = .ok (.inl ()) ∧
      splitEndMarker r = (r, [])) := by
  induction r generalizing p with
  | nil =>
    right
    exact ⟨loop_end (Nat.le_of_eq (by rw [List.append_nil])), rfl⟩
  | cons c r ih =>
    have hlt : p.length < (p ++ c :: r).length := by
      rw [List.length_append, List.length_cons]
      omega
    have hturn := markerTurn_eq hlength
    cases hmarker : endMarker.isPrefixOf (c :: r) with
    | true =>
      left
      rw [hmarker, if_pos rfl] at hturn
      have hsplit : splitEndMarker (c :: r) = ([], r.drop 3) := by
        rw [splitEndMarker]
        exact if_pos hmarker
      obtain ⟨t, ht⟩ := List.isPrefixOf_iff_prefix.1 hmarker
      cases ht
      rw [loop_done hlt hturn, hsplit, List.append_nil]
      exact ⟨rfl, rfl⟩
    | false =>
      rw [hmarker, if_neg Bool.false_ne_true] at hturn
      have hsplit : splitEndMarker (c :: r)
          = (c :: (splitEndMarker r).1, (splitEndMarker r).2) := by
        rw [splitEndMarker]
        exact if_neg (ne_true_of_eq_false hmarker)
      have hrest := ih (p := p ++ [c])
      rw [List.append_assoc, List.singleton_append] at hrest
      rw [loop_next hlt hturn (by simp), hsplit]
      rcases hrest hlength with ⟨hloop, hr⟩ | ⟨hloop, hr⟩
      · left
        rw [hloop, List.append_assoc]
        exact ⟨rfl, congrArg (c :: ·) hr⟩
      · right
        rw [hr]
        exact ⟨hloop, rfl⟩

/-- **Looking for an end marker by places never fails**, and splits the text there. -/
theorem takeUntilEndMarker_eq (hlength : (p ++ r).length < 2 ^ 63) :
    takeUntilEndMarker (p ++ r) p.length
      = .ok ((splitEndMarker r).1, (p ++ r).length - (splitEndMarker r).2.length) := by
  unfold takeUntilEndMarker
  rcases loop_markerTurn hlength with ⟨hloop, hr⟩ | ⟨hloop, hr⟩
  · have hslice := charSlice_append p (splitEndMarker r).1 (endMarker ++ (splitEndMarker r).2)
    rw [← hr] at hslice
    have hplace : (p ++ (splitEndMarker r).1).length + 4
        = (p ++ r).length - (splitEndMarker r).2.length := by
      have hsum := congrArg List.length hr
      have hmarker : endMarker.length = 4 := rfl
      simp only [List.length_append] at hsum ⊢
      omega
    simp only [hloop, ok_bind, hslice]
    rw [plus_eq (by omega), hplace]
    rfl
  · have hslice := charSlice_append p r []
    rw [List.append_nil] at hslice
    simp only [hloop, ok_bind, hslice, hr]
    rfl

/-! ### Directives -/

/-- The text of a run of 16-bit units, cut off by places. -/
def units (s : List Char) : Except Misstep (List Char) := do
  let (ns, rest) ← groups 4 s
  return charsOfUnits ns ++ rest

/-- The text of a run of code points, cut off by places. -/
def codes (s : List Char) : Except Misstep (List Char) := do
  let (ns, rest) ← groups 8 s
  return ns.map (fun n => (charOfCode? n).getD replacement) ++ rest

/-- The code of a character in the upper half of its page. Codes are words of 32 bits. -/
def upperHalf (c : Char) : Except Misstep Nat :=
  if c.toNat + 128 < 2 ^ 32 then .ok (c.toNat + 128) else .error .overflow

/-- The byte that two digits stand for. -/
def byte? (hex : List Char) : Option Nat := (hex? hex).filter fun _ => byteSize hex = 2

/-- One turn of decoding. -/
def decodeTurn (s : List Char) (i : Nat) (out : List Char) :
    Except Misstep (Turn (List Char) Empty) := do
  let c ← charAt s i
  let i₁ ← plus i 1
  let i₂ ← plus i 2
  let i₃ ← plus i 3
  if c = '\'' then
    return .next (if s[i₁]? = some '\'' then i₂ else i₁) (out ++ ['\''])
  else if c ≠ '\\' then return .next i₁ (out ++ [c])
  else match s[i₁]?, s[i₂]?, s[i₃]? with
    | some 'X', some '\\', _ =>
      match byte? ((s.drop i₃).take 2) with
      | some n => return .next (← plus i 5) (out ++ [Char.ofNat n])
      | none => return .next i₁ (out ++ ['\\'])
    | some 'X', some '2', some '\\' =>
      let (hex, j) ← takeUntilEndMarker s (← plus i 4)
      return .next j (out ++ (← units hex))
    | some 'X', some '4', some '\\' =>
      let (hex, j) ← takeUntilEndMarker s (← plus i 4)
      return .next j (out ++ (← codes hex))
    | some 'S', some '\\', some d =>
      let code ← upperHalf d
      return .next (← plus i 4) (out ++ (charOfCode? code).toList)
    | some 'P', some _, some '\\' => return .next (← plus i 4) out
    | some '\\', _, _ => return .next i₂ (out ++ ['\\'])
    | _, _, _ => return .next i₁ (out ++ ['\\'])

/-- The text that an encoded string stands for, read by places. A string without an apostrophe and a
backslash stands for itself. -/
def decode (s : List Char) : Except Misstep (List Char) := do
  if '\\' ∉ s ∧ '\'' ∉ s then return s
  else match ← loop s.length (decodeTurn s) 0 [] with
    | .inr e => nomatch e
    | .inl out => return out

/-- **Groups of four digits by places** are the code units. -/
theorem units_eq (s : List Char) : units s = .ok (decodeUnits s) := by
  unfold units decodeUnits
  rw [groups_eq (by decide)]
  rfl

/-- **Groups of eight digits by places** are the code points. -/
theorem codes_eq (s : List Char) : codes s = .ok (decodeCodes s) := by
  unfold codes decodeCodes
  rw [groups_eq (by decide)]
  rfl

theorem upperHalf_eq (c : Char) : upperHalf c = .ok (c.toNat + 128) := by
  have hvalid : c.toNat < 0xD800 ∨ 0xDFFF < c.toNat ∧ c.toNat < 0x110000 := c.valid
  unfold upperHalf
  rw [if_pos (by omega)]

theorem exists_cons_of_getElem?_zero (h : r[0]? = some c) : ∃ t, r = c :: t := by
  cases r with
  | nil => cases h
  | cons d t =>
    cases h
    exact ⟨t, rfl⟩

theorem exists_cons_cons_of_getElem? {d : Char} (h₀ : r[0]? = some c) (h₁ : r[1]? = some d) :
    ∃ t, r = c :: d :: t := by
  obtain ⟨t, rfl⟩ := exists_cons_of_getElem?_zero h₀
  obtain ⟨t, rfl⟩ := exists_cons_of_getElem?_zero (show t[0]? = some d from h₁)
  exact ⟨t, rfl⟩

theorem exists_cons_cons_cons_of_getElem? {d e : Char} (h₀ : r[0]? = some c)
    (h₁ : r[1]? = some d) (h₂ : r[2]? = some e) : ∃ t, r = c :: d :: e :: t := by
  obtain ⟨t, rfl⟩ := exists_cons_of_getElem?_zero h₀
  obtain ⟨t, rfl⟩ := exists_cons_cons_of_getElem? (show t[0]? = some d from h₁) h₂
  exact ⟨t, rfl⟩

/-- The place behind the first `k` characters from a place on. -/
theorem length_sub_length {q : List Char} (k : Nat) (h : q.length + k = r.length) :
    (p ++ r).length - q.length = p.length + k := by
  rw [List.length_append]
  omega

/-- A directive for groups of digits. -/
theorem takeUntilEndMarker_directive {d : Char} {t : List Char}
    (hlength : (p ++ '\\' :: 'X' :: d :: '\\' :: t).length < 2 ^ 63) :
    takeUntilEndMarker (p ++ '\\' :: 'X' :: d :: '\\' :: t) (p.length + 4)
      = .ok ((splitEndMarker t).1,
        (p ++ '\\' :: 'X' :: d :: '\\' :: t).length - (splitEndMarker t).2.length) := by
  have htext : p ++ '\\' :: 'X' :: d :: '\\' :: t = (p ++ ['\\', 'X', d, '\\']) ++ t :=
    (List.append_assoc p ['\\', 'X', d, '\\'] t).symm
  have hplace : p.length + 4 = (p ++ ['\\', 'X', d, '\\']).length := by
    rw [List.length_append]
    rfl
  rw [htext] at hlength ⊢
  rw [hplace]
  exact takeUntilEndMarker_eq hlength

/-- Two bytes that are digits are two characters. -/
theorem decodeUnit_byte (t : List Char) : decodeUnit '\\' ('X' :: '\\' :: t) =
    match byte? (t.take 2) with
    | some n => ([Char.ofNat n], t.drop 2)
    | none => (['\\'], 'X' :: '\\' :: t) := by
  have hunit : decodeUnit '\\' ('X' :: '\\' :: t) = match hex? (t.take 2) with
    | some n =>
      if (t.take 2).length = 2 then ([Char.ofNat n], t.drop 2) else (['\\'], 'X' :: '\\' :: t)
    | none => (['\\'], 'X' :: '\\' :: t) := rfl
  unfold byte?
  rw [hunit]
  cases hhex : hex? (t.take 2) with
  | none => rfl
  | some n =>
    rw [byteSize_of_isAscii (isAscii_of_hex? hhex), Option.filter_some]
    simp only [decide_eq_true_eq]
    split <;> rfl

/-- A byte is given by two digits. -/
theorem length_of_byte? {t : List Char} {n : Nat} (h : byte? (t.take 2) = some n) :
    (t.drop 2).length + 2 = t.length := by
  obtain ⟨hhex, htwo⟩ := Option.filter_eq_some_iff.1 h
  rw [byteSize_of_isAscii (isAscii_of_hex? hhex), decide_eq_true_eq, List.length_take] at htwo
  rw [List.length_drop]
  omega

/-- **A turn at a backslash** takes the directive and goes on behind it. -/
theorem decodeTurn_backslash (out : List Char) (hlength : (p ++ '\\' :: r).length < 2 ^ 63) :
    decodeTurn (p ++ '\\' :: r) p.length out
      = .ok (.next ((p ++ '\\' :: r).length - (decodeUnit '\\' r).2.length)
        (out ++ (decodeUnit '\\' r).1)) := by
  have hlook : ∀ k, (p ++ '\\' :: r)[p.length + (k + 1)]? = r[k]? := by
    intro k
    rw [getElem?_append_length_add, List.getElem?_cons_succ]
  have hp : p.length < 2 ^ 63 := by
    rw [List.length_append] at hlength
    omega
  unfold decodeTurn
  rw [charAt_append, ok_bind, plus_eq (by omega), ok_bind, plus_eq (by omega), ok_bind,
    plus_eq (by omega), ok_bind, if_neg (by decide), if_neg (by decide)]
  simp only [hlook]
  split
  · -- one byte in two digits
    next h₀ h₁ =>
    obtain ⟨t, rfl⟩ := exists_cons_cons_of_getElem? h₀ h₁
    have hdrop : (p ++ '\\' :: 'X' :: '\\' :: t).drop (p.length + 3) = t :=
      List.drop_length_add_append ..
    rw [hdrop, decodeUnit_byte]
    cases hbyte : byte? (t.take 2) with
    | none =>
      rw [length_sub_length 1 rfl]
      rfl
    | some n =>
      have hrest : (t.drop 2).length + 5 = ('\\' :: 'X' :: '\\' :: t).length :=
        congrArg (· + 3) (length_of_byte? hbyte)
      simp only [plus_eq (show p.length + 5 < 2 ^ 64 by omega), ok_bind]
      rw [length_sub_length 5 hrest]
      rfl
  · next h₀ h₁ h₂ =>
    obtain ⟨t, rfl⟩ := exists_cons_cons_cons_of_getElem? h₀ h₁ h₂
    rw [plus_eq (by omega), ok_bind, takeUntilEndMarker_directive hlength, ok_bind]
    simp only [units_eq, ok_bind]
    rfl
  · next h₀ h₁ h₂ =>
    obtain ⟨t, rfl⟩ := exists_cons_cons_cons_of_getElem? h₀ h₁ h₂
    rw [plus_eq (by omega), ok_bind, takeUntilEndMarker_directive hlength, ok_bind]
    simp only [codes_eq, ok_bind]
    rfl
  · next d h₀ h₁ h₂ =>
    obtain ⟨t, rfl⟩ := exists_cons_cons_cons_of_getElem? h₀ h₁ h₂
    have hunit : decodeUnit '\\' ('S' :: '\\' :: d :: t)
        = ((charOfCode? (d.toNat + 128)).toList, t) := rfl
    rw [upperHalf_eq, ok_bind, plus_eq (by omega), ok_bind, hunit, length_sub_length 4 rfl]
    rfl
  · next d h₀ h₁ h₂ =>
    obtain ⟨t, rfl⟩ := exists_cons_cons_cons_of_getElem? h₀ h₁ h₂
    have hunit : decodeUnit '\\' ('P' :: d :: '\\' :: t) = ([], t) := rfl
    rw [plus_eq (by omega), ok_bind, hunit, length_sub_length 4 rfl, List.append_nil]
    rfl
  · next h₀ =>
    obtain ⟨t, rfl⟩ := exists_cons_of_getElem?_zero h₀
    have hunit : decodeUnit '\\' ('\\' :: t) = (['\\'], t) := rfl
    rw [hunit, length_sub_length 2 rfl]
    rfl
  · -- no directive
    next hbackslash hbyte hunits hcodes hshift hpage =>
    have hunit : decodeUnit '\\' r = (['\\'], r) := by
      unfold decodeUnit
      rw [if_neg (by decide), if_pos rfl]
      split
      · exact (hbyte rfl rfl).elim
      · exact (hunits rfl rfl rfl).elim
      · exact (hcodes rfl rfl rfl).elim
      · exact (hshift _ rfl rfl rfl).elim
      · exact (hpage _ rfl rfl rfl).elim
      · exact (hbackslash rfl).elim
      · rfl
    rw [hunit, length_sub_length 1 rfl]
    rfl

/-- **A turn never fails.** It gives what one character and what may follow it stand for, and gets
on to the place behind them. -/
theorem decodeTurn_eq (out : List Char) (hlength : (p ++ c :: r).length < 2 ^ 63) :
    decodeTurn (p ++ c :: r) p.length out
      = .ok (.next ((p ++ c :: r).length - (decodeUnit c r).2.length)
        (out ++ (decodeUnit c r).1)) := by
  by_cases hbackslash : c = '\\'
  · subst hbackslash
    exact decodeTurn_backslash out hlength
  rw [List.length_append, List.length_cons] at hlength
  have hlook : (p ++ c :: r)[p.length + 1]? = r[0]? := by
    rw [getElem?_append_length_add, List.getElem?_cons_succ]
  unfold decodeTurn
  rw [charAt_append, ok_bind, plus_eq (by omega), ok_bind, plus_eq (by omega), ok_bind,
    plus_eq (by omega), ok_bind, hlook]
  by_cases hquote : c = '\''
  · subst hquote
    rw [if_pos rfl]
    by_cases hr : r[0]? = some '\''
    · obtain ⟨t, rfl⟩ := exists_cons_of_getElem?_zero hr
      have hunit : decodeUnit '\'' ('\'' :: t) = (['\''], t) := rfl
      rw [if_pos hr, hunit, length_sub_length 2 rfl]
      rfl
    · have hunit : decodeUnit '\'' r = (['\''], r) := by
        unfold decodeUnit
        rw [if_pos rfl]
        split
        · exact absurd rfl hr
        · rfl
      rw [if_neg hr, hunit, length_sub_length 1 rfl]
      rfl
  · have hunit : decodeUnit c r = ([c], r) := by
      unfold decodeUnit
      rw [if_neg hquote, if_neg hbackslash]
    rw [if_neg hquote, if_pos hbackslash, hunit, length_sub_length 1 rfl]
    rfl

/-- Behind a run of codes there is a part of the text. -/
theorem splitEndMarker_suffix (r : List Char) : (splitEndMarker r).2 <:+ r := by
  rcases (marked_splitEndMarker r).eq with h | ⟨-, h⟩
  · exact ⟨(splitEndMarker r).1 ++ endMarker, by rw [List.append_assoc, ← h]⟩
  · rw [h]
    exact List.nil_suffix

/-- Behind a unit there is a part of the text. -/
theorem decodeUnit_suffix (c : Char) (r : List Char) : (decodeUnit c r).2 <:+ r := by
  have hcons : ∀ (p t : List Char), t <:+ p ++ t := fun p t => List.suffix_append p t
  unfold decodeUnit
  split
  · split
    · exact hcons ['\''] _
    · exact List.suffix_rfl
  split
  · split
    · next t =>
      have hdrop : t.drop 2 <:+ 'X' :: '\\' :: t :=
        (List.drop_suffix 2 t).trans (hcons ['X', '\\'] t)
      split
      · split
        · exact hdrop
        · exact List.suffix_rfl
      · exact List.suffix_rfl
    · next t => exact (splitEndMarker_suffix t).trans (hcons ['X', '2', '\\'] t)
    · next t => exact (splitEndMarker_suffix t).trans (hcons ['X', '4', '\\'] t)
    · next d t => exact hcons ['S', '\\', d] t
    · next d t => exact hcons ['P', d, '\\'] t
    · next t => exact hcons ['\\'] t
    · exact List.suffix_rfl
  · exact List.suffix_rfl

/-- Text without directives and apostrophes is decoded as it is. -/
theorem decode_of_plain (h : '\\' ∉ s ∧ '\'' ∉ s) : Step.decode s = s := by
  induction s with
  | nil => rw [Step.decode]
  | cons c s ih =>
    simp only [List.mem_cons, not_or] at h
    have hunit : decodeUnit c s = ([c], s) := by
      unfold decodeUnit
      rw [if_neg (Ne.symm h.2.1), if_neg (Ne.symm h.1.1)]
    rw [decode_cons, hunit, ih ⟨h.1.2, h.2.2⟩]
    rfl

/-- A text has no more characters than bytes. -/
theorem length_le_byteSize (s : List Char) : s.length ≤ byteSize s := by
  induction s with
  | nil => exact Nat.le_refl _
  | cons c s ih =>
    rw [byteSize_cons, List.length_cons]
    have := c.utf8Size_pos
    omega

/-- What decoding keeps: what has been read and what is ahead stand for the text that the string
stands for. -/
def KeepsDecoded (s _ r out : List Char) : Prop := out ++ Step.decode r = Step.decode s

/-- A turn of decoding gets on and keeps what it has to keep. -/
theorem getsOn_decodeTurn {out : List Char} (hlength : s.length < 2 ^ 63) (hs : s = p ++ c :: r)
    (h : KeepsDecoded s p (c :: r) out) :
    GetsOn List.length (decodeTurn s) (KeepsDecoded s) p (c :: r) out := by
  subst hs
  have hturn := decodeTurn_eq out hlength
  obtain ⟨q, hq⟩ := decodeUnit_suffix c r
  have htext : c :: r = (c :: q) ++ (decodeUnit c r).2 := congrArg (c :: ·) hq.symm
  have hplace : (p ++ c :: r).length - (decodeUnit c r).2.length = (p ++ (c :: q)).length := by
    rw [htext, ← List.append_assoc, List.length_append, Nat.add_sub_cancel]
  rw [hplace] at hturn
  refine ⟨c :: q, _, _, htext, List.cons_ne_nil _ _, ?_, hturn⟩
  unfold KeepsDecoded at h ⊢
  rw [← h, decode_cons, List.append_assoc]

/-- **Decoding by places never fails**, and gives the text that the string stands for. -/
theorem decode_eq (hsize : byteSize s < 2 ^ 63) : decode s = .ok (Step.decode s) := by
  unfold decode
  by_cases hplain : '\\' ∉ s ∧ '\'' ∉ s
  · rw [if_pos hplain, decode_of_plain hplain]
    rfl
  have hlength := Nat.lt_of_le_of_lt (length_le_byteSize s) hsize
  obtain ⟨out, hloop, hout⟩ := loop_chars_through
    (fun p c r out hs h => getsOn_decodeTurn hlength hs h)
    (show KeepsDecoded s [] s [] from List.nil_append _)
  unfold KeepsDecoded at hout
  rw [Step.decode, List.append_nil] at hout
  rw [if_neg hplain, hloop, ok_bind, hout]
  rfl

end BimAudit.Step.ByPlace
