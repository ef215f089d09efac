import Mathlib.Algebra.Group.Int.Defs
import Mathlib.Algebra.Group.Nat.Defs
import BimAudit.Proofs.Totals
import BimAudit.Text.Ascii

/-!
# Places in a text

The readers of parameter texts go through the bytes of a text by their places, look ahead, and take
parts of it from one place to another. Each of these steps is possible only if the places are good:
a byte is there, a part does not end before it begins, neither end lies within a character, and a
place or a count fits its word. Here the steps give a `Misstep` where they are not possible. How
much room a machine has for texts and for calls within calls is no part of this.

* `bytes`, `cut?`: the bytes of a text, and the text in front of and behind a place.
  `cut?_eq_some_iff`: exactly the places between characters have both.
* `byteAt`, `slice`, `plus`, `minus`, `deepen`: steps. `loop`: a loop of steps over places.
* `loop_next`, `loop_done`, `loop_end`: a turn of a loop. `loop_wide`: a loop that looks for ASCII
  characters only passes over any other character, whatever its number of bytes.
-/

namespace BimAudit.Text

/-! ### Bytes -/

/-- The number of bytes of a text. -/
def byteSize (s : List Char) : Nat := total Char.utf8Size s

/-- The bytes of a text, each as the character with this code. -/
def bytes (s : List Char) : List Char :=
  s.flatMap fun c => (String.utf8EncodeChar c).map fun b => Char.ofNat b.toNat

/-- The character is a single byte. -/
def IsAscii (c : Char) : Prop := c.toNat < 128

instance (c : Char) : Decidable (IsAscii c) := inferInstanceAs (Decidable (c.toNat < 128))

theorem byteSize_nil : byteSize [] = 0 := rfl

theorem byteSize_cons (c : Char) (s : List Char) : byteSize (c :: s) = c.utf8Size + byteSize s :=
  total_cons ..

theorem byteSize_append (s t : List Char) : byteSize (s ++ t) = byteSize s + byteSize t :=
  total_append ..

theorem byteSize_lt_append_cons (p r : List Char) (c : Char) :
    byteSize p < byteSize (p ++ c :: r) := by
  rw [byteSize_append, byteSize_cons]
  have hpos := c.utf8Size_pos
  omega

theorem length_bytes (s : List Char) : (bytes s).length = byteSize s := by
  induction s with
  | nil => rfl
  | cons c s ih =>
    unfold bytes at ih ⊢
    rw [List.flatMap_cons, List.length_append, List.length_map, String.length_utf8EncodeChar, ih,
      byteSize_cons]

/-- These are the bytes of UTF-8. -/
theorem bytes_toList (s : String) :
    bytes s.toList = s.toByteArray.data.toList.map fun b => Char.ofNat b.toNat := by
  rw [← String.utf8Encode_toList, List.utf8Encode, List.data_toByteArray, List.map_flatMap]
  rfl

theorem byteSize_toList (s : String) : byteSize s.toList = s.utf8ByteSize := by
  rw [← length_bytes, bytes_toList, List.length_map, Array.length_toList]
  rfl

/-- The bytes of texts in a row are in a row. -/
theorem bytes_append (s t : List Char) : bytes (s ++ t) = bytes s ++ bytes t := List.flatMap_append

theorem utf8Size_of_isAscii {c : Char} (h : IsAscii c) : c.utf8Size = 1 := by
  rw [Char.utf8Size_eq_one_iff]
  exact Nat.le_of_lt_succ h

/-- A character of ASCII is its own byte. -/
theorem bytes_cons_of_isAscii {c : Char} (h : IsAscii c) (s : List Char) :
    bytes (c :: s) = c :: bytes s := by
  have hbyte : c.val.toUInt8.toNat = c.toNat := by
    rw [UInt32.toNat_toUInt8]
    exact Nat.mod_eq_of_lt (Nat.lt_trans h (by decide))
  unfold bytes
  rw [List.flatMap_cons, String.utf8EncodeChar_eq_singleton (utf8Size_of_isAscii h),
    List.map_singleton, hbyte, Char.ofNat_toNat]
  rfl

theorem toNat_ofNat_byte (b : UInt8) : (Char.ofNat b.toNat).toNat = b.toNat := by
  have hlt : b.toNat < 256 := b.toNat_lt
  have hvalid : b.toNat.isValidChar := .inl (by omega)
  rw [Char.ofNat, dif_pos hvalid]
  rfl

/-- The bytes of a character that is no single byte are no characters of their own. -/
theorem not_isAscii_of_mem_bytes {c b : Char} (hc : ¬ IsAscii c) (hb : b ∈ bytes [c]) :
    ¬ IsAscii b := by
  unfold IsAscii at hc
  unfold bytes at hb
  rw [List.flatMap_singleton] at hb
  obtain ⟨u, hu, rfl⟩ := List.mem_map.1 hb
  have hle : 128 ≤ u.toNat := by
    have hval : c.val.toNat = c.toNat := rfl
    unfold String.utf8EncodeChar at hu
    simp only [hval] at hu
    split at hu
    · omega
    · split at hu
      · simp only [List.mem_cons, List.not_mem_nil, or_false] at hu
        rcases hu with rfl | rfl <;> rw [UInt8.toNat_ofNat'] <;> omega
      · split at hu
        · simp only [List.mem_cons, List.not_mem_nil, or_false] at hu
          rcases hu with rfl | rfl | rfl <;> rw [UInt8.toNat_ofNat'] <;> omega
        · simp only [List.mem_cons, List.not_mem_nil, or_false] at hu
          rcases hu with rfl | rfl | rfl | rfl <;> rw [UInt8.toNat_ofNat'] <;> omega
  unfold IsAscii
  rw [toNat_ofNat_byte]
  omega

/-- A byte of another character is no character of ASCII. -/
theorem ne_of_not_isAscii {b x : Char} (hb : ¬ IsAscii b) (hx : IsAscii x) : b ≠ x := by
  rintro rfl
  exact hb hx

/-! ### Parts -/

/-- The text in front of a place and the text behind it, if no character lies across it. -/
def cut? : List Char → Nat → Option (List Char × List Char)
  | s, 0 => some ([], s)
  | [], _ + 1 => none
  | c :: r, n + 1 =>
    if c.utf8Size ≤ n + 1 then (cut? r (n + 1 - c.utf8Size)).map fun (p, q) => (c :: p, q)
    else none

/-- **A text is cut where one part of it ends.** -/
theorem cut?_append (p q : List Char) : cut? (p ++ q) (byteSize p) = some (p, q) := by
  induction p with
  | nil => rw [List.nil_append, byteSize_nil, cut?]
  | cons c p ih =>
    have hpos : 0 < c.utf8Size := c.utf8Size_pos
    obtain ⟨n, hn⟩ : ∃ n, c.utf8Size + byteSize p = n + 1 := ⟨_, (Nat.succ_pred (by omega)).symm⟩
    have hrest : n + 1 - c.utf8Size = byteSize p := by omega
    rw [List.cons_append, byteSize_cons, hn, cut?, if_pos (by omega), hrest, ih]
    rfl

/-- **A text can be cut exactly at the places between its characters.** -/
theorem cut?_eq_some_iff {s p q : List Char} {n : Nat} :
    cut? s n = some (p, q) ↔ s = p ++ q ∧ byteSize p = n := by
  constructor
  · intro h
    fun_induction cut? s n generalizing p with
    | case1 s =>
      cases h
      exact ⟨rfl, rfl⟩
    | case2 => cases h
    | case3 c r n hle ih =>
      obtain ⟨⟨p', q'⟩, hcut, heq⟩ := Option.map_eq_some_iff.1 h
      cases heq
      obtain ⟨hr, hsize⟩ := ih hcut
      rw [byteSize_cons, hsize, hr]
      exact ⟨rfl, by omega⟩
    | case4 => cases h
  · rintro ⟨rfl, rfl⟩
    exact cut?_append p q

/-! ### Steps -/

/-- Why a step is not possible. -/
inductive Misstep where
  /-- There is nothing at the place. -/
  | place
  /-- A part would end before it begins. -/
  | order
  /-- A part would begin or end within a character or behind the text. -/
  | boundary
  /-- A place or a count does not fit its word. -/
  | overflow
  /-- A loop does not get on, or what is to be read inside a text is no shorter than the text. -/
  | standstill
deriving DecidableEq, Repr

/-- What is there, and else the misstep. -/
def require {α : Type} (m : Misstep) : Option α → Except Misstep α
  | some a => .ok a
  | none => .error m

/-- The byte at a place. -/
def byteAt (s : List Char) (i : Nat) : Except Misstep Char := require .place (bytes s)[i]?

/-- The part of a text from one place to another. -/
def slice (s : List Char) (i j : Nat) : Except Misstep (List Char) := do
  if j < i then throw .order
  let (front, _) ← require .boundary (cut? s j)
  let (_, part) ← require .boundary (cut? front i)
  return part

/-- A later place. Places are words of 64 bits. -/
def plus (i k : Nat) : Except Misstep Nat :=
  if i + k < 2 ^ 64 then .ok (i + k) else .error .overflow

/-- An earlier place. -/
def minus (i k : Nat) : Except Misstep Nat := if k ≤ i then .ok (i - k) else .error .overflow

/-- A depth that has changed. Depths are signed words of 32 bits. -/
def deepen (d k : Int) : Except Misstep Int :=
  if -2 ^ 31 ≤ d + k ∧ d + k < 2 ^ 31 then .ok (d + k) else .error .overflow

theorem pure_eq_ok {α : Type} (a : α) : (pure a : Except Misstep α) = .ok a := rfl

theorem ok_bind {α β : Type} (a : α) (f : α → Except Misstep β) : (Except.ok a >>= f) = f a := rfl

theorem plus_eq {i k : Nat} (h : i + k < 2 ^ 64) : plus i k = .ok (i + k) := if_pos h

theorem minus_eq {i k : Nat} (h : k ≤ i) : minus i k = .ok (i - k) := if_pos h

theorem deepen_eq {d k : Int} (h : -2 ^ 31 ≤ d + k ∧ d + k < 2 ^ 31) :
    deepen d k = .ok (d + k) := if_pos h

/-- The part between two places between characters. -/
theorem slice_append (p q r : List Char) :
    slice (p ++ q ++ r) (byteSize p) (byteSize (p ++ q)) = .ok q := by
  have hle : ¬ byteSize (p ++ q) < byteSize p := by
    rw [byteSize_append]
    omega
  unfold slice
  rw [if_neg hle, cut?_append]
  show (do let (_, part) ← require .boundary (cut? (p ++ q) (byteSize p)); return part) = _
  rw [cut?_append]
  rfl

/-- The byte behind a part of a text is the first one of the rest. -/
theorem getElem?_bytes_append (p r : List Char) :
    (bytes (p ++ r))[byteSize p]? = (bytes r).head? := by
  rw [bytes_append, List.getElem?_append_right (Nat.le_of_eq (length_bytes p)), length_bytes,
    Nat.sub_self, List.head?_eq_getElem?]

/-- The byte behind a part of a text is the next character if this is one of ASCII. -/
theorem byteAt_append {c : Char} (h : IsAscii c) (p r : List Char) :
    byteAt (p ++ c :: r) (byteSize p) = .ok c := by
  unfold byteAt
  rw [getElem?_bytes_append, bytes_cons_of_isAscii h]
  rfl

/-- In front of a character there is a byte, which is the character itself if this is ASCII and no
character of its own if not. -/
theorem exists_byteAt (p r : List Char) (c : Char) :
    ∃ b, byteAt (p ++ c :: r) (byteSize p) = .ok b ∧ (IsAscii c → b = c) ∧
      (¬ IsAscii c → ¬ IsAscii b) := by
  by_cases hc : IsAscii c
  · exact ⟨c, byteAt_append hc p r, fun _ => rfl, fun h => absurd hc h⟩
  · obtain ⟨b, bs, hbytes⟩ : ∃ b bs, bytes [c] = b :: bs := by
      refine List.exists_cons_of_length_pos ?_
      rw [length_bytes]
      exact c.utf8Size_pos
    have hsplit : bytes (c :: r) = b :: (bs ++ bytes r) := by
      have happend : bytes (c :: r) = bytes [c] ++ bytes r := bytes_append [c] r
      rw [happend, hbytes]
      rfl
    refine ⟨b, ?_, fun h => absurd h hc, fun _ =>
      not_isAscii_of_mem_bytes hc (hbytes ▸ List.mem_cons_self)⟩
    unfold byteAt
    rw [getElem?_bytes_append, hsplit]
    rfl

/-- A look at a byte finds an ASCII character exactly if it comes next in the text. -/
theorem getElem?_bytes_eq_some_iff {x : Char} (hx : IsAscii x) (p r : List Char) :
    (bytes (p ++ r))[byteSize p]? = some x ↔ r.head? = some x := by
  cases r with
  | nil =>
    rw [getElem?_bytes_append]
    exact Iff.rfl
  | cons c r =>
    obtain ⟨b, hb, hascii, hwide⟩ := exists_byteAt p r c
    have hsome : (bytes (p ++ c :: r))[byteSize p]? = some b := by
      unfold byteAt require at hb
      split at hb
      · next hget =>
        cases hb
        exact hget
      · cases hb
    rw [hsome, List.head?_cons, Option.some_inj, Option.some_inj]
    by_cases hc : IsAscii c
    · rw [hascii hc]
    · exact iff_of_false (ne_of_not_isAscii (hwide hc) hx) (ne_of_not_isAscii hc hx)

/-- One place further on another character of ASCII has been passed. -/
theorem byteSize_append_of_isAscii {c : Char} (h : IsAscii c) (p : List Char) :
    byteSize (p ++ [c]) = byteSize p + 1 := by
  rw [byteSize_append, byteSize_cons, utf8Size_of_isAscii h]
  rfl

/-- A look at the byte behind an ASCII character. -/
theorem getElem?_bytes_succ_eq_some_iff {c x : Char} (hc : IsAscii c) (hx : IsAscii x)
    (p r : List Char) : (bytes (p ++ c :: r))[byteSize p + 1]? = some x ↔ r.head? = some x := by
  have hlook := getElem?_bytes_eq_some_iff hx (p ++ [c]) r
  rwa [byteSize_append_of_isAscii hc, List.append_assoc] at hlook

/-! ### Loops -/

/-- What a turn of a loop comes to. -/
inductive Turn (σ α : Type) where
  /-- The next turn, at another place. -/
  | next (place : Nat) (state : σ)
  /-- The end of the loop. -/
  | done (result : α)

/-- A loop over the places in front of `stop`, from a place on. It has a result only if a turn ends
it. -/
def loop {σ α : Type} (stop : Nat) (turn : Nat → σ → Except Misstep (Turn σ α)) (i : Nat)
    (state : σ) : Except Misstep (σ ⊕ α) :=
  if i < stop then
    match turn i state with
    | .error m => .error m
    | .ok (.done a) => .ok (.inr a)
    | .ok (.next j state') => if i < j then loop stop turn j state' else .error .standstill
  else .ok (.inl state)
termination_by stop - i

section Loops

variable {σ α : Type} {stop i j : Nat} {turn : Nat → σ → Except Misstep (Turn σ α)}
  {state state' : σ}

theorem loop_end (h : stop ≤ i) : loop stop turn i state = .ok (.inl state) := by
  rw [loop, if_neg (Nat.not_lt.2 h)]

/-- A turn may end the loop. -/
theorem loop_done {a : α} (hi : i < stop) (h : turn i state = .ok (.done a)) :
    loop stop turn i state = .ok (.inr a) := by
  rw [loop, if_pos hi, h]

/-- A turn may lead to another turn. -/
theorem loop_next (hi : i < stop) (h : turn i state = .ok (.next j state')) (hj : i < j) :
    loop stop turn i state = loop stop turn j state' := by
  rw [loop, if_pos hi, h]
  exact if_pos hj

/-- The loop goes on at the next place wherever it meets a byte that is no character of its own. -/
def PassesWide (s : List Char) (turn : Nat → σ → Except Misstep (Turn σ α)) : Prop :=
  ∀ (i : Nat) (b : Char) (state : σ), byteAt s i = .ok b → ¬ IsAscii b → i + 1 < 2 ^ 64 →
    turn i state = .ok (.next (i + 1) state)

/-- Such a loop passes over a character of several bytes. -/
theorem loop_wide {p r : List Char} {c : Char} (hturn : PassesWide (p ++ c :: r) turn)
    (hsize : byteSize (p ++ c :: r) < 2 ^ 63) (hc : ¬ IsAscii c) :
    loop (byteSize (p ++ c :: r)) turn (byteSize p) state
      = loop (byteSize (p ++ c :: r)) turn (byteSize (p ++ [c])) state := by
  have hlength : (bytes [c]).length = c.utf8Size := length_bytes [c]
  rw [byteSize_append, byteSize_cons] at hsize ⊢
  -- the bytes of the character one after the other
  have hbytes : ∀ k, k ≤ c.utf8Size →
      loop (byteSize p + (c.utf8Size + byteSize r)) turn (byteSize p) state
        = loop (byteSize p + (c.utf8Size + byteSize r)) turn (byteSize p + k) state := by
    intro k
    induction k with
    | zero => exact fun _ => rfl
    | succ k ih =>
      intro hk
      obtain ⟨b, hb⟩ : ∃ b, (bytes [c])[k]? = some b :=
        ⟨_, List.getElem?_eq_getElem (by omega)⟩
      have hat : byteAt (p ++ c :: r) (byteSize p + k) = .ok b := by
        have hsplit : bytes (p ++ c :: r) = bytes p ++ (bytes [c] ++ bytes r) := by
          rw [bytes_append, ← bytes_append [c] r]
          rfl
        unfold byteAt
        rw [hsplit, List.getElem?_append_right (by rw [length_bytes]; omega), length_bytes,
          Nat.add_sub_cancel_left, List.getElem?_append_left (by omega), hb]
        rfl
      have hwide := not_isAscii_of_mem_bytes hc (List.mem_of_getElem? hb)
      rw [ih (by omega), loop_next (by omega) (hturn _ b state hat hwide (by omega)) (by omega)]
      rfl
  rw [hbytes c.utf8Size (Nat.le_refl _), byteSize_append]
  rfl

/-- A turn at the place behind `p` gets on to a place further behind, where `keeps` holds again. -/
def GetsOn (place : List Char → Nat) (turn : Nat → σ → Except Misstep (Turn σ α))
    (keeps : List Char → List Char → σ → Prop) (p r : List Char) (state : σ) : Prop :=
  ∃ q r' state', r = q ++ r' ∧ q ≠ [] ∧ keeps (p ++ q) r' state' ∧
    turn (place p) state = .ok (.next (place (p ++ q)) state')

/-- **What a loop keeps.** The places of the loop are those behind the parts `p` of a text. Where
`keeps p r state` holds for what is behind and ahead of a place, turns get on to a place where it
holds again, or one of them ends the loop. Then the loop comes to an end. -/
theorem loop_run {place : List Char → Nat} {s : List Char} (hstop : place s = stop)
    {keeps : List Char → List Char → σ → Prop} (ends : α → Prop)
    (hstep : ∀ p c r state, s = p ++ c :: r → keeps p (c :: r) state →
      (∃ q r' state', c :: r = q ++ r' ∧ q ≠ [] ∧ keeps (p ++ q) r' state' ∧
        loop stop turn (place p) state = loop stop turn (place (p ++ q)) state') ∨
      ∃ a, loop stop turn (place p) state = .ok (.inr a) ∧ ends a)
    {p r : List Char} (hs : s = p ++ r) (hkeeps : keeps p r state) :
    (∃ state', loop stop turn (place p) state = .ok (.inl state') ∧ keeps s [] state') ∨
      ∃ a, loop stop turn (place p) state = .ok (.inr a) ∧ ends a := by
  induction hn : r.length using Nat.strongRecOn generalizing p r state with
  | ind n ih =>
    cases r with
    | nil =>
      rw [List.append_nil] at hs
      subst hs
      exact .inl ⟨state, loop_end (Nat.le_of_eq hstop.symm), hkeeps⟩
    | cons c r =>
      rcases hstep p c r state hs hkeeps with ⟨q, r', state', hq, hne, hkeeps', hloop⟩ | hdone
      · have hlt : r'.length < n := by
          have hlength := congrArg List.length hq
          have hpos := List.length_pos_iff.2 hne
          rw [List.length_append] at hlength
          omega
        rw [hloop]
        exact ih r'.length hlt (by rw [hs, hq, List.append_assoc]) hkeeps' rfl
      · exact .inr hdone

/-- **What a loop over bytes keeps**, if it looks for ASCII characters only: it is enough to look at
these. -/
theorem loop_bytes {s : List Char} {turn : Nat → σ → Except Misstep (Turn σ α)}
    (hsize : byteSize s < 2 ^ 63) (hwide : PassesWide s turn)
    {keeps : List Char → List Char → σ → Prop} (ends : α → Prop)
    (hpass : ∀ p c r state, s = p ++ c :: r → ¬ IsAscii c → keeps p (c :: r) state →
      keeps (p ++ [c]) r state)
    (hturn : ∀ p c r state, s = p ++ c :: r → IsAscii c → keeps p (c :: r) state →
      GetsOn byteSize turn keeps p (c :: r) state ∨
        ∃ a, turn (byteSize p) state = .ok (.done a) ∧ ends a)
    {p r : List Char} {state : σ} (hs : s = p ++ r) (hkeeps : keeps p r state) :
    (∃ state', loop (byteSize s) turn (byteSize p) state = .ok (.inl state') ∧ keeps s [] state') ∨
      ∃ a, loop (byteSize s) turn (byteSize p) state = .ok (.inr a) ∧ ends a := by
  refine loop_run rfl ends (fun p c r state hs hkeeps => ?_) hs hkeeps
  by_cases hc : IsAscii c
  · have hlt : byteSize p < byteSize s := hs ▸ byteSize_lt_append_cons p r c
    rcases hturn p c r state hs hc hkeeps with
      ⟨q, r', state', hq, hne, hkeeps', hnext⟩ | ⟨a, ha, he⟩
    · have hpos : byteSize p < byteSize (p ++ q) := by
        obtain ⟨d, q', rfl⟩ := List.exists_cons_of_ne_nil hne
        exact byteSize_lt_append_cons p q' d
      exact .inl ⟨q, r', state', hq, hne, hkeeps', loop_next hlt hnext hpos⟩
    · exact .inr ⟨a, loop_done hlt ha, he⟩
  · subst hs
    exact .inl ⟨[c], r, state, rfl, List.cons_ne_nil _ _, hpass p c r state rfl hc hkeeps,
      loop_wide hwide hsize hc⟩

/-- A loop over bytes of which no turn ends it goes through the whole text. -/
theorem loop_bytes_through {s : List Char} {turn : Nat → σ → Except Misstep (Turn σ α)}
    (hsize : byteSize s < 2 ^ 63) (hwide : PassesWide s turn)
    {keeps : List Char → List Char → σ → Prop}
    (hpass : ∀ p c r state, s = p ++ c :: r → ¬ IsAscii c → keeps p (c :: r) state →
      keeps (p ++ [c]) r state)
    (hturn : ∀ p c r state, s = p ++ c :: r → IsAscii c → keeps p (c :: r) state →
      GetsOn byteSize turn keeps p (c :: r) state)
    {state : σ} (hkeeps : keeps [] s state) :
    ∃ state', loop (byteSize s) turn 0 state = .ok (.inl state') ∧ keeps s [] state' := by
  have hrun := loop_bytes hsize hwide (fun _ => False) hpass
    (fun p c r state hs hc h => .inl (hturn p c r state hs hc h)) (List.nil_append s).symm hkeeps
  rcases hrun with h | ⟨_, -, hfalse⟩
  · exact h
  · exact hfalse.elim

/-- A loop over characters of which no turn ends it goes through the whole text. -/
theorem loop_chars_through {s : List Char} {turn : Nat → σ → Except Misstep (Turn σ α)}
    {keeps : List Char → List Char → σ → Prop}
    (hturn : ∀ p c r state, s = p ++ c :: r → keeps p (c :: r) state →
      GetsOn List.length turn keeps p (c :: r) state)
    {state : σ} (hkeeps : keeps [] s state) :
    ∃ state', loop s.length turn 0 state = .ok (.inl state') ∧ keeps s [] state' := by
  have hstep : ∀ p c r state, s = p ++ c :: r → keeps p (c :: r) state →
      ∃ q r' state', c :: r = q ++ r' ∧ q ≠ [] ∧ keeps (p ++ q) r' state' ∧
        loop s.length turn p.length state = loop s.length turn (p ++ q).length state' := by
    intro p c r state hs h
    obtain ⟨q, r', state', hq, hne, hkeeps', hnext⟩ := hturn p c r state hs h
    have hlt : p.length < s.length := by
      rw [hs, List.length_append, List.length_cons]
      omega
    have hpos := List.length_pos_iff.2 hne
    have hon : p.length < (p ++ q).length := by
      rw [List.length_append]
      omega
    exact ⟨q, r', state', hq, hne, hkeeps', loop_next hlt hnext hon⟩
  have hrun := loop_run rfl (fun _ => False) (fun p c r state hs h => .inl (hstep p c r state hs h))
    (List.nil_append s).symm hkeeps
  rcases hrun with h | ⟨_, -, hfalse⟩
  · exact h
  · exact hfalse.elim

end Loops

end BimAudit.Text
