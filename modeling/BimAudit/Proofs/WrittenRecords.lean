import BimAudit.Ifc.Scan
import BimAudit.Proofs.RecordStore
import BimAudit.Proofs.WrittenValues

/-!
# Records are scanned from their lines

Records that were written on a line each are found by scanning the text, in the same order and with
the same values. Nothing a record says can end its line early: all that is written is printable
ASCII.

* `Value.printable_write`: a written value is printable ASCII.
* `Record.read?_write`: **a record is read back**, whatever its parameter text.
* `lines_flatMap_append`: a text of lines is cut into these lines.
* `list_scan_writeLines`: **scanning finds the records, and each gives back its values.**
-/

namespace BimAudit.Step

open Text (trim trimStart trimEnd isBlank isWordChar)

/-! ### Printable texts -/

/-- A character of printable ASCII. -/
def isPrintable (c : Char) : Bool := ' ' ≤ c && c ≤ '~'

/-- Every character is one of printable ASCII. -/
def Printable (s : List Char) : Prop := ∀ c ∈ s, isPrintable c = true

variable {p q : List Char}

theorem Printable.append (hp : Printable p) (hq : Printable q) : Printable (p ++ q) := by
  intro c hc
  rcases List.mem_append.1 hc with hc | hc
  · exact hp c hc
  · exact hq c hc

theorem Printable.cons {c : Char} (hc : isPrintable c = true) (hp : Printable p) :
    Printable (c :: p) := by
  intro d hd
  rcases List.mem_cons.1 hd with rfl | hd
  · exact hc
  · exact hp d hd

/-- The printable characters are those of ASCII from the space to the tilde. -/
theorem isPrintable_iff (c : Char) : isPrintable c = true ↔ 0x20 ≤ c.toNat ∧ c.toNat ≤ 0x7E := by
  unfold isPrintable
  rw [Bool.and_eq_true, decide_eq_true_eq, decide_eq_true_eq]
  exact Iff.rfl

/-- Names are printable. -/
theorem printable_of_isWordChar (h : ∀ c ∈ p, isWordChar c = true) : Printable p := by
  intro c hc
  have hcode := code_of_isWordChar (h c hc)
  rw [isPrintable_iff]
  omega

/-- Numbers are printable. -/
theorem printable_of_isLiteralChar (h : ∀ c ∈ p, Decimal.Literal.isLiteralChar c = true) :
    Printable p := by
  intro c hc
  have hliteral := h c hc
  unfold Decimal.Literal.isLiteralChar at hliteral
  simp only [Bool.or_eq_true, decide_eq_true_eq] at hliteral
  rcases hliteral with ((((hdigit | rfl) | rfl) | rfl) | rfl) | rfl
  · unfold Text.isDigit at hdigit
    rw [Bool.and_eq_true, decide_eq_true_eq, decide_eq_true_eq] at hdigit
    have hlow : 0x30 ≤ c.toNat := hdigit.1
    have hhigh : c.toNat ≤ 0x39 := hdigit.2
    rw [isPrintable_iff]
    omega
  all_goals decide

theorem printable_toDigits (n : Nat) : Printable (Nat.toDigits 10 n) :=
  printable_of_isLiteralChar fun _ hc =>
    Decimal.Literal.isLiteralChar_of_isDigit (Text.isDigit_of_mem_toDigits hc)

/-- **Every character is written in printable ones**, whatever it is itself. -/
theorem printable_encodeChar (c : Char) : Printable (encodeChar c) := by
  have hend : Printable ['\\', 'X', '0', '\\'] := List.all_eq_true.1 rfl
  have hdigits : ∀ width, Printable (Text.hexWritten width c.toNat) := fun _ =>
    printable_of_isWordChar fun _ hd => Text.isWordChar_of_mem_hexWritten hd
  unfold encodeChar
  split
  · exact List.all_eq_true.1 rfl
  split
  · exact List.all_eq_true.1 rfl
  split
  · next h =>
    intro d hd
    rw [List.mem_singleton.1 hd, isPrintable, decide_eq_true h.1, decide_eq_true h.2]
    rfl
  split
  · refine (Printable.append ?_ (hdigits 4)).append hend
    exact List.all_eq_true.1 rfl
  · refine (Printable.append ?_ (hdigits 8)).append hend
    exact List.all_eq_true.1 rfl

/-- Every string is written in printable characters. -/
theorem printable_encode (s : List Char) : Printable (encode s) := by
  intro d hd
  obtain ⟨c, -, hd⟩ := List.mem_flatMap.1 hd
  exact printable_encodeChar c d hd

/-- Parameters are printable together if each of them is. -/
theorem printable_commaSeparated {ps : List (List Char)} (h : ∀ p ∈ ps, Printable p) :
    Printable (commaSeparated ps) := by
  induction ps with
  | nil => exact List.forall_mem_nil _
  | cons p ps ih =>
    have hp := h p List.mem_cons_self
    cases ps with
    | nil => exact hp
    | cons q ps =>
      have hps := ih fun q hq => h q (List.mem_cons_of_mem _ hq)
      rw [commaSeparated]
      · exact hp.append (hps.cons (by decide))
      · exact List.cons_ne_nil _ _

namespace Value

mutual

/-- **A written value is printable ASCII.** -/
theorem printable_write : ∀ {v : Value}, v.WellFormed → Printable v.write
  | string s, _ => by
    have hclose : Printable ['\''] := List.all_eq_true.1 rfl
    exact ((printable_encode s.toList).cons (by decide)).append hclose
  | number s, h => by
    obtain ⟨sign, whole, fraction, power, hparts⟩ :=
      Decimal.Literal.parts_of_isNumber h.1 h.2
    exact printable_of_isLiteralChar fun c hc => hparts.mem hc
  | enum name, h => by
    have hclose : Printable ['.'] := List.all_eq_true.1 rfl
    exact ((printable_of_isWordChar h).cons (by decide)).append hclose
  | .reference id, _ => (printable_toDigits id).cons (by decide)
  | list items, h => by
    have hclose : Printable [')'] := List.all_eq_true.1 rfl
    exact ((printable_commaSeparated (printable_writeAll h)).cons (by decide)).append hclose
  | typed type inner, h => by
    have hclose : Printable [')'] := List.all_eq_true.1 rfl
    have htype : Printable type.toList :=
      printable_of_isWordChar fun c hc => isWordChar_of_isTypeName h.1 hc
    exact (htype.append ((printable_write h.2).cons (by decide))).append hclose
  | null, _ => List.all_eq_true.1 rfl
  | derived, _ => List.all_eq_true.1 rfl

/-- Every well-formed value is written in printable characters. -/
theorem printable_writeAll :
    ∀ {vs : List Value}, AllWellFormed vs → ∀ p ∈ writeAll vs, Printable p
  | [], _, p, hp => nomatch hp
  | v :: vs, h, p, hp => by
    rcases List.mem_cons.1 hp with rfl | hp
    · exact printable_write h.1
    · exact printable_writeAll h.2 p hp

end

end Value

/-! ### One record -/

theorem splitAt?_append {c : Char} (h : c ∉ p) (r : List Char) :
    splitAt? c (p ++ c :: r) = some (p, r) := by
  unfold splitAt?
  rw [Text.dropWhile_ne_append h, Text.takeWhile_ne_append h]

/-- A text that does not end with a blank keeps its end. -/
theorem trimEnd_concat {b : Char} (hb : isBlank b = false) (s : List Char) :
    trimEnd (s ++ [b]) = s ++ [b] := by
  unfold trimEnd
  rw [List.reverse_append, List.reverse_singleton, List.singleton_append, List.dropWhile_cons, hb]
  simp

theorem dropLast?_concat (c : Char) (s : List Char) : dropLast? c (s ++ [c]) = some s := by
  unfold dropLast?
  rw [List.getLast?_concat, if_pos rfl, List.dropLast_concat]

/-- The end of a record is a closing parenthesis and a semicolon. -/
theorem closeBody?_append (s : List Char) : closeBody? (s ++ [')', ';']) = some s := by
  have hsplit : s ++ [')', ';'] = (s ++ [')']) ++ [';'] := by simp
  unfold closeBody?
  simp only [hsplit, trimEnd_concat (b := ';') (by decide), dropLast?_concat, Option.getD_some,
    trimEnd_concat (b := ')') (by decide)]

namespace Record

/-- The record has the id of a record and the name of a type. -/
structure WellFormed (r : Record) : Prop where
  id_lt : r.id < Text.wordLimit
  isTypeName : Value.IsTypeName r.type.toList

variable {r : Record}

/-- A record is written as its identifier, its type and its parameters. -/
theorem write_eq (r : Record) : r.write = '#' :: (Nat.toDigits 10 r.id ++
    '=' :: (r.type.toList ++ '(' :: (r.parameters ++ [')', ';']))) := by
  unfold write
  simp

/-- A record is written without blanks around it. -/
theorem trim_write (r : Record) : trim r.write = r.write := by
  have htrim := Text.trim_between (a := '#') (b := ';') (by decide) (by decide)
    (Nat.toDigits 10 r.id ++ '=' :: (r.type.toList ++ '(' :: (r.parameters ++ [')'])))
  rw [write_eq]
  simpa using htrim

theorem not_mem_toDigits {c : Char} (h : Text.isDigit c = false) (n : Nat) :
    c ∉ Nat.toDigits 10 n := by
  intro hmem
  rw [Text.isDigit_of_mem_toDigits hmem] at h
  cases h

/-- **A record is read back**, whatever its parameter text. -/
theorem read?_write (h : r.WellFormed) : read? r.write = some r := by
  have hword : ∀ c ∈ r.type.toList, isWordChar c = true := fun c hc =>
    isWordChar_of_isTypeName h.isTypeName hc
  have hid : trim (Nat.toDigits 10 r.id) = Nat.toDigits 10 r.id :=
    Value.trim_toDigits r.id
  -- no blanks come between the parts
  have htype : trimStart (r.type.toList ++ '(' :: (r.parameters ++ [')', ';']))
      = r.type.toList ++ '(' :: (r.parameters ++ [')', ';']) := by
    apply Text.dropWhile_eq_self_iff_head?.2
    intro c hc
    cases htype : r.type.toList with
    | nil => exact absurd htype h.isTypeName.1
    | cons d ds =>
      rw [htype, List.cons_append, List.head?_cons] at hc
      rw [← Option.some.inj hc]
      exact isBlank_of_isWordChar (hword d (htype ▸ List.mem_cons_self))
  have hcond : r.type.toList ≠ [] ∧ r.type.toList.all isWordChar = true :=
    ⟨h.isTypeName.1, List.all_eq_true.2 hword⟩
  have hequals : '=' ∉ Nat.toDigits 10 r.id := not_mem_toDigits (by decide) r.id
  have hopen : '(' ∉ r.type.toList := not_mem_of_isWordChar hword (by decide)
  unfold read?
  rw [trim_write, write_eq]
  simp only [splitAt?_append hequals, hid, Text.wordDigits?_toDigits h.id_lt, htype,
    splitAt?_append hopen, Option.bind_eq_bind, Option.bind_some, if_pos hcond,
    closeBody?_append, Option.map_some, Value.upperString_of_isTypeName h.isTypeName]

/-- **A written record starts a record**: its line is not taken for the rest of another one. -/
theorem startsRecord_write (r : Record) : startsRecord r.write = true := by
  have hdigits : (Nat.toDigits 10 r.id ++ '=' :: (r.type.toList ++ '(' ::
      (r.parameters ++ [')', ';']))).dropWhile Text.isDigit
      = '=' :: (r.type.toList ++ '(' :: (r.parameters ++ [')', ';'])) := by
    rw [List.dropWhile_append_of_pos fun c hc => Text.isDigit_of_mem_toDigits hc]
    rfl
  rw [write_eq, startsRecord, hdigits]
  cases hd : Nat.toDigits 10 r.id with
  | nil => exact absurd hd Nat.toDigits_ne_nil
  | cons c ds =>
    have hc : Text.isDigit c = true := Text.isDigit_of_mem_toDigits (hd ▸ List.mem_cons_self)
    rw [List.cons_append, List.head?_cons, Option.map_some, Option.getD_some, hc]
    rfl

/-- A record with printable parameters is written in printable characters. -/
theorem printable_write (h : r.WellFormed) (hp : Printable r.parameters) : Printable r.write := by
  have hend : Printable [')', ';'] := List.all_eq_true.1 rfl
  have htype : Printable r.type.toList :=
    printable_of_isWordChar fun c hc => isWordChar_of_isTypeName h.isTypeName hc
  rw [write_eq]
  refine ((printable_toDigits r.id).append ?_).cons (by decide)
  exact (htype.append ((hp.append hend).cons (by decide))).cons (by decide)

end Record

/-! ### Records with their values -/

/-- A record with the values of its parameters. -/
structure DataRecord where
  id : Nat
  type : String
  values : List Value

namespace DataRecord

/-- The record with its parameters in their plain written form. -/
def record (r : DataRecord) : Record := ⟨r.id, r.type, Value.writeParameters r.values⟩

/-- The id is a 64-bit word, the type has the name of a type, and every value is well-formed. -/
structure WellFormed (r : DataRecord) : Prop where
  id_lt : r.id < Text.wordLimit
  isTypeName : Value.IsTypeName r.type.toList
  values : Value.AllWellFormed r.values

variable {r : DataRecord}

theorem WellFormed.record (h : r.WellFormed) : r.record.WellFormed := ⟨h.id_lt, h.isTypeName⟩

/-- **The values of a record are read back.** -/
theorem values_record (h : r.WellFormed) : r.record.values = r.values :=
  Value.readAll_writeParameters h.values

theorem printable_write_record (h : r.WellFormed) : Printable r.record.write :=
  Record.printable_write h.record (printable_commaSeparated (Value.printable_writeAll h.values))

end DataRecord

/-- The records in their plain written form, each on a line of its own. -/
def writeLines (rs : List DataRecord) : List Char :=
  rs.flatMap fun r => r.record.write ++ ['\n']

end BimAudit.Step

namespace BimAudit.Text

/-! ### Lines -/

/-- The character ends no line. -/
def isInline (c : Char) : Bool := c ≠ '\n' && c ≠ '\r'

/-- A character within a line is put in front of the line that follows. -/
theorem lineStep_of_isInline {c : Char} (h : isInline c = true) (b : Bool) (l : List Char)
    (ls : List (List Char)) : lineStep c (b, l :: ls) = (false, (c :: l) :: ls) := by
  unfold isInline at h
  simp only [ne_eq, decide_not, Bool.and_eq_true, Bool.not_eq_true', decide_eq_false_iff_not] at h
  simp [lineStep, h.1, h.2]

/-- Characters within a line are put in front of the line that follows. -/
theorem foldr_lineStep {p : List Char} (h : ∀ c ∈ p, isInline c = true) (b : Bool) (l : List Char)
    (ls : List (List Char)) : (p.foldr lineStep (b, l :: ls)).2 = (p ++ l) :: ls := by
  induction p with
  | nil => rfl
  | cons c p ih =>
    have hp := ih fun d hd => h d (List.mem_cons_of_mem _ hd)
    rw [List.foldr_cons]
    -- the state behind the character, by its two parts
    have hstate : p.foldr lineStep (b, l :: ls)
        = ((p.foldr lineStep (b, l :: ls)).1, (p ++ l) :: ls) := by rw [← hp]
    rw [hstate, lineStep_of_isInline (h c List.mem_cons_self)]
    rfl

/-- **A text of lines is cut into these lines.** -/
theorem lines_flatMap_append {ls : List (List Char)} (h : ∀ l ∈ ls, ∀ c ∈ l, isInline c = true) :
    lines (ls.flatMap (· ++ ['\n'])) = ls := by
  induction ls with
  | nil => rfl
  | cons l ls ih =>
    have hls := ih fun m hm => h m (List.mem_cons_of_mem _ hm)
    have hfeed : ∀ t, lineStep '\n' t = (true, [] :: t.2) := fun _ => rfl
    unfold lines at hls ⊢
    rw [List.flatMap_cons, List.foldr_append, List.foldr_append, List.foldr_cons, List.foldr_nil,
      hfeed, foldr_lineStep (h l List.mem_cons_self), hls, List.append_nil]

end BimAudit.Text

namespace BimAudit.Ifc

open Step (Record DataRecord writeLines)

namespace Scan

/-- A record on a line of its own is added to the store. -/
theorem line_write {s : Scan} {r : Record} (hs : s.pending = none) (h : r.WellFormed) :
    s.line r.write = { s with store := s.store.push r } := by
  have hend : endsWith ';' r.write = true := by
    have hlast : (r.write).getLast? = some ';' := by
      unfold Record.write
      rw [List.getLast?_append]
      rfl
    unfold endsWith
    rw [hlast]
    rfl
  -- no record is open, and this one ends on its own line
  unfold line
  rw [Record.trim_write, hs]
  simp only
  rw [start, Record.startsRecord_write, if_pos rfl, hend, Bool.true_or, if_pos rfl, push,
    Record.read?_write h]
  simp only [hs]

/-- So are the records of several lines, in this order. -/
theorem lines_write {rs : List Record} (h : ∀ r ∈ rs, r.WellFormed) {s : Scan}
    (hs : s.pending = none) :
    s.lines (rs.map Record.write) = { s with store := rs.foldl Store.push s.store } := by
  unfold lines
  induction rs generalizing s with
  | nil => rfl
  | cons r rs ih =>
    have hrest := ih (fun q hq => h q (List.mem_cons_of_mem _ hq))
      (s := { s with store := s.store.push r }) hs
    rw [List.map_cons, List.foldl_cons, line_write hs (h r List.mem_cons_self), hrest]
    rfl

end Scan

/-- **Written records are read back line by line.** -/
theorem lines_writeLines {rs : List DataRecord} (h : ∀ r ∈ rs, r.WellFormed) :
    Text.lines (writeLines rs) = (rs.map DataRecord.record).map Record.write := by
  have hlines : writeLines rs
      = ((rs.map DataRecord.record).map Record.write).flatMap (· ++ ['\n']) := by
    unfold writeLines
    rw [List.flatMap_map, List.flatMap_map]
  rw [hlines]
  apply Text.lines_flatMap_append
  intro l hl c hc
  obtain ⟨q, hq, rfl⟩ := List.mem_map.1 hl
  obtain ⟨r, hr, rfl⟩ := List.mem_map.1 hq
  -- a line end is not printable
  have hprintable := (Step.isPrintable_iff c).1 (DataRecord.printable_write_record (h r hr) c hc)
  unfold Text.isInline
  simp only [ne_eq, decide_not, Bool.and_eq_true, Bool.not_eq_true', decide_eq_false_iff_not]
  constructor <;>
  · rintro rfl
    revert hprintable
    decide

/-- **Records are scanned from their lines.** Scanning a text with a record on each line finds
these records in this order, and the parameters of each one give back its values. -/
theorem list_scan_writeLines (rs : List DataRecord) (h : ∀ r ∈ rs, r.WellFormed) :
    (Scan.lines {} (Text.lines (writeLines rs))).finish.store.list = rs.map DataRecord.record ∧
      ∀ r ∈ rs, r.record.values = r.values := by
  refine ⟨?_, fun r hr => DataRecord.values_record (h r hr)⟩
  have hrecords : ∀ q ∈ rs.map DataRecord.record, q.WellFormed := by
    intro q hq
    obtain ⟨r, hr, rfl⟩ := List.mem_map.1 hq
    exact (h r hr).record
  rw [lines_writeLines h, Scan.lines_write hrecords rfl]
  exact Store.list_foldl_push _ _

/-- A record with quotes, commas and parentheses in its strings, a character of two units, and
values within values. -/
def sampleRecord : DataRecord where
  id := 12
  type := "IFCWALL"
  values := [.string "it's\\(a),é😀", .list [.typed "IFCREAL" (.number "-.5E3"), .list [], .null],
    .typed "IFCLABEL" (.list [.string "')", .enum "T"]), .reference 18446744073709551615, .derived]

/-- Two records with values of every kind, nested in each other, are written on two lines and read
back. -/
theorem list_scan_writeLines_sample :
    (∀ r ∈ [sampleRecord, ⟨0, "A_1", []⟩], r.WellFormed) ∧
      writeLines [sampleRecord, ⟨0, "A_1", []⟩] =
        ("#12=IFCWALL('it''s\\\\(a),\\X2\\00E9\\X0\\\\X4\\0001F600\\X0\\',(IFCREAL(-.5E3),(),$)," ++
          "IFCLABEL((''')',.T.)),#18446744073709551615,*);\n#0=A_1();\n").toList ∧
      (Scan.lines {} (Text.lines (writeLines [sampleRecord, ⟨0, "A_1", []⟩]))).finish.store.list
        = [sampleRecord, ⟨0, "A_1", []⟩].map DataRecord.record ∧
      ∀ r ∈ [sampleRecord, ⟨0, "A_1", []⟩], r.record.values = r.values := by
  have h : ∀ r ∈ [sampleRecord, ⟨0, "A_1", []⟩], r.WellFormed := by
    intro r hr
    rcases List.mem_cons.1 hr with rfl | hr
    · refine ⟨by decide, by decide, ?_⟩
      have hid : 18446744073709551615 < Text.wordLimit := by decide
      have hname : ∀ c ∈ "T".toList, Text.isWordChar c = true := List.all_eq_true.1 rfl
      exact ⟨trivial, ⟨⟨by decide, by decide, by decide⟩, trivial, trivial, trivial⟩,
        ⟨by decide, trivial, hname, trivial⟩, hid, trivial, trivial⟩
    · rw [List.mem_singleton.1 hr]
      exact ⟨by decide, by decide, trivial⟩
  exact ⟨h, by decide +kernel, list_scan_writeLines _ h⟩

end BimAudit.Ifc
