import BimAudit.Proofs.WrittenRecords

/-!
# Texts behind records

A text behind a record adds to its last parameter. Only a semicolon does not: it ends a record that
ended with its closing parenthesis before.

* `startsRecord_append`: what begins like a record still does, with any text behind it.
* `Record.opening?`: the part of a record in front of its parameters. `Record.opening?_append`,
  `Record.opening?_append_eq_none`: no text behind it changes it.
* `Record.read?_append_eq_iff`: **a text behind a closing parenthesis is part of the record**,
  unless it is a mere semicolon.
-/

namespace BimAudit.Step

open Text (trim trimStart trimEnd isBlank isWordChar dropWhile_append_of_ne_nil
  exists_trimEnd_append)

variable {p q : List Char}

/-! ### A text behind a text -/

theorem splitAt?_eq_some_iff {c : Char} {s a b : List Char} :
    splitAt? c s = some (a, b) ↔ c ∉ a ∧ s = a ++ c :: b := by
  constructor
  · intro h
    unfold splitAt? at h
    split at h
    · cases h
    · next d r hr =>
      cases h
      have hd : d = c := by
        have hnot := List.head?_dropWhile_not (· ≠ c) s
        rw [hr] at hnot
        simpa using hnot
      refine ⟨?_, ?_⟩
      · intro hmem
        simpa using List.all_eq_true.1 List.all_takeWhile c hmem
      · rw [← hd, ← hr, hd, List.takeWhile_append_dropWhile]
  · rintro ⟨hmem, rfl⟩
    exact splitAt?_append hmem b

/-- The first of the characters stays where it is. -/
theorem splitAt?_append_right {c : Char} {a b : List Char} (h : splitAt? c p = some (a, b))
    (q : List Char) : splitAt? c (p ++ q) = some (a, b ++ q) := by
  obtain ⟨hmem, rfl⟩ := splitAt?_eq_some_iff.1 h
  rw [List.append_assoc, List.cons_append, splitAt?_append hmem]

theorem startsRecord_append (h : startsRecord p = true) (q : List Char) :
    startsRecord (p ++ q) = true := by
  unfold startsRecord at h
  split at h
  · next r =>
    rw [Bool.and_eq_true, decide_eq_true_eq] at h
    obtain ⟨hdigit, hequals⟩ := h
    have hdigits : r.dropWhile Text.isDigit ≠ [] := by
      intro hnil
      rw [hnil] at hequals
      cases hequals
    have hblanks : (r.dropWhile Text.isDigit).dropWhile isBlank ≠ [] := by
      intro hnil
      unfold trimStart at hequals
      rw [hnil] at hequals
      cases hequals
    have hr : r ≠ [] := by
      rintro rfl
      cases hdigit
    rw [List.cons_append, startsRecord, List.head?_append_of_ne_nil _ hr, hdigit,
      dropWhile_append_of_ne_nil hdigits, trimStart, dropWhile_append_of_ne_nil hblanks,
      List.head?_append_of_ne_nil _ hblanks]
    unfold trimStart at hequals
    rw [hequals]
    rfl
  · cases h

theorem splitAt?_eq_none_iff {c : Char} {s : List Char} : splitAt? c s = none ↔ c ∉ s := by
  constructor
  · intro h hmem
    obtain ⟨a, b, rfl, ha⟩ := List.eq_append_cons_of_mem hmem
    rw [splitAt?_append ha] at h
    cases h
  · intro hmem
    cases h : splitAt? c s with
    | none => rfl
    | some a =>
      obtain ⟨a, b⟩ := a
      obtain ⟨-, rfl⟩ := splitAt?_eq_some_iff.1 h
      exact absurd (List.mem_append_right a List.mem_cons_self) hmem

theorem getLast?_of_append_cons {s t : List Char} {c d : Char}
    (h : (s ++ c :: t).getLast? = some d) (hne : c ≠ d) : t.getLast? = some d := by
  rw [List.getLast?_append] at h
  cases t with
  | nil => exact absurd (by simpa using h) hne
  | cons a t => simpa using h

/-- What begins like a record has an equals sign. -/
theorem exists_of_startsRecord (h : startsRecord p = true) : ∃ a b : List Char,
    p = '#' :: (a ++ '=' :: b) ∧ splitAt? '=' (a ++ '=' :: b) = some (a, b) := by
  unfold startsRecord at h
  split at h
  · next r =>
    rw [Bool.and_eq_true, decide_eq_true_eq] at h
    have hmem : '=' ∈ r := by
      have hsuffix := (List.dropWhile_suffix isBlank (l := r.dropWhile Text.isDigit)).trans
        (List.dropWhile_suffix Text.isDigit)
      exact hsuffix.subset (List.mem_of_head? h.2)
    obtain ⟨a, b, rfl, ha⟩ := List.eq_append_cons_of_mem hmem
    exact ⟨a, b, rfl, splitAt?_append ha b⟩
  · cases h

/-! ### A text behind a closing parenthesis -/

/-- A closing parenthesis at the end closes a body, also without a semicolon. -/
theorem closeBody?_concat (s : List Char) : closeBody? (s ++ [')']) = some s := by
  have hopen : dropLast? ';' (s ++ [')']) = none := by
    unfold dropLast?
    rw [List.getLast?_concat]
    exact if_neg (by decide)
  unfold closeBody?
  simp only [trimEnd_concat (b := ')') (by decide), hopen, Option.getD_none, dropLast?_concat]

/-- Only a semicolon leaves the body what it was. -/
theorem closeBody?_append_eq_iff {s : List Char}
    (hhead : ∀ c, q.head? = some c → isBlank c = false) (hlast : q.getLast? = some ';') :
    closeBody? (s ++ ')' :: q) = some s ↔ q = [';'] := by
  constructor
  · intro h
    obtain ⟨t, rfl⟩ := List.getLast?_eq_some_iff.1 hlast
    have hsplit : s ++ ')' :: (t ++ [';']) = (s ++ ')' :: t) ++ [';'] := by simp
    unfold closeBody? at h
    rw [hsplit] at h
    simp only [trimEnd_concat (b := ';') (by decide), dropLast?_concat, Option.getD_some] at h
    have htrim : trimEnd (s ++ ')' :: t) = s ++ [')'] := by
      unfold dropLast? at h
      split at h
      · next hclose =>
        obtain ⟨u, hu⟩ := List.getLast?_eq_some_iff.1 hclose
        rw [hu, List.dropLast_concat] at h
        rw [hu, Option.some.inj h]
      · cases h
    -- what stands before the semicolon is blank, and the text does not begin with a blank
    obtain ⟨blanks, hblanks, hall⟩ := exists_trimEnd_append (s ++ ')' :: t)
    rw [htrim, List.append_assoc, List.singleton_append, List.append_cancel_left_eq,
      List.cons.injEq] at hblanks
    cases t with
    | nil => rfl
    | cons c t =>
      have hblank : isBlank c = true := hall c (hblanks.2 ▸ List.mem_cons_self)
      rw [hhead c rfl] at hblank
      cases hblank
  · rintro rfl
    exact closeBody?_append s

namespace Record

/-- The id and the type of a record, and the text behind the opening parenthesis. -/
def opening? : List Char → Option (Nat × List Char × List Char)
  | '#' :: r => do
    let (id, r) ← splitAt? '=' r
    let id ← Text.wordDigits? (trim id)
    let (type, body) ← splitAt? '(' (trimStart r)
    if type ≠ [] ∧ type.all isWordChar then some (id, type, body) else none
  | _ => none

theorem read?_eq (line : List Char) :
    read? line = (opening? (trim line)).bind fun (id, type, body) =>
      (closeBody? body).map fun parameters => ⟨id, upperString type, parameters⟩ := by
  unfold read?
  generalize trim line = l
  cases l with
  | nil => rfl
  | cons c r =>
    by_cases hc : c = '#'
    · subst hc
      unfold opening?
      simp only [Option.bind_eq_bind]
      cases splitAt? '=' r with
      | none => rfl
      | some a =>
        cases hid : Text.wordDigits? (trim a.1) with
        | none => simp [hid]
        | some id =>
          cases hopen : splitAt? '(' (trimStart a.2) with
          | none => simp [hid, hopen]
          | some b =>
            simp only [Option.bind_some, hid, hopen]
            split <;> rfl
    · unfold opening?
      simp [hc]

/-- What an opening is made of. -/
theorem exists_of_opening? {id : Nat} {type body : List Char}
    (h : opening? p = some (id, type, body)) : ∃ a b : List Char,
      p = '#' :: (a ++ '=' :: b) ∧ splitAt? '=' (a ++ '=' :: b) = some (a, b) ∧
      Text.wordDigits? (trim a) = some id ∧ splitAt? '(' (trimStart b) = some (type, body) ∧
      type ≠ [] ∧ type.all isWordChar = true := by
  unfold opening? at h
  split at h
  · next r =>
    obtain ⟨⟨a, b⟩, ha, h⟩ := Option.bind_eq_some_iff.1 h
    obtain ⟨i, hi, h⟩ := Option.bind_eq_some_iff.1 h
    obtain ⟨⟨t, u⟩, hb, h⟩ := Option.bind_eq_some_iff.1 h
    simp only at hi hb h
    split at h
    · next htype =>
      cases h
      obtain ⟨-, rfl⟩ := splitAt?_eq_some_iff.1 ha
      exact ⟨a, b, rfl, ha, hi, hb, htype⟩
    · cases h
  · cases h

/-- A text behind a record that opens comes behind its body. -/
theorem opening?_append {id : Nat} {type body : List Char}
    (h : opening? p = some (id, type, body)) (q : List Char) :
    opening? (p ++ q) = some (id, type, body ++ q) := by
  obtain ⟨a, b, rfl, ha, hid, hb, htype⟩ := exists_of_opening? h
  have hne : b.dropWhile isBlank ≠ [] := by
    intro hnil
    unfold trimStart at hb
    rw [hnil] at hb
    cases hb
  have htrim : trimStart (b ++ q) = trimStart b ++ q := dropWhile_append_of_ne_nil hne q
  rw [List.cons_append]
  unfold opening?
  simp only [splitAt?_append_right ha, Option.bind_eq_bind, Option.bind_some, hid, htrim,
    splitAt?_append_right hb, if_pos htype]

/-- What does not open like a record up to a closing parenthesis never does. -/
theorem opening?_append_eq_none (hstart : startsRecord p = true) (hlast : p.getLast? = some ')')
    (h : opening? p = none) (q : List Char) : opening? (p ++ q) = none := by
  obtain ⟨a, b, rfl, ha⟩ := exists_of_startsRecord hstart
  have hb : b.getLast? = some ')' := getLast?_of_append_cons (s := '#' :: a) hlast (by decide)
  unfold opening? at h ⊢
  rw [List.cons_append]
  simp only [ha, splitAt?_append_right ha, Option.bind_eq_bind, Option.bind_some] at h ⊢
  cases hid : Text.wordDigits? (trim a) with
  | none => rfl
  | some id =>
    rw [hid, Option.bind_some] at h
    rw [Option.bind_some]
    -- the closing parenthesis is part of what stands where the type should be
    have hmem : ')' ∈ trimStart b := by
      have hsplit : b.takeWhile isBlank ++ trimStart b = b := List.takeWhile_append_dropWhile
      have hmem : ')' ∈ b := List.mem_of_getLast? hb
      rw [← hsplit, List.mem_append] at hmem
      rcases hmem with hblank | hmem
      · exact absurd (List.all_eq_true.1 List.all_takeWhile _ hblank) (by decide)
      · exact hmem
    have htrim : trimStart (b ++ q) = trimStart b ++ q :=
      dropWhile_append_of_ne_nil (List.ne_nil_of_mem hmem) q
    rw [htrim]
    cases hopen : splitAt? '(' (trimStart b) with
    | some c =>
      rw [hopen, Option.bind_some] at h
      rw [splitAt?_append_right hopen, Option.bind_some]
      split at h
      · cases h
      · next htype => exact if_neg htype
    | none =>
      cases hopen' : splitAt? '(' (trimStart b ++ q) with
      | none => rfl
      | some c =>
        obtain ⟨type, body⟩ := c
        obtain ⟨-, heq⟩ := splitAt?_eq_some_iff.1 hopen'
        have hnot : '(' ∉ trimStart b := splitAt?_eq_none_iff.1 hopen
        have htype : ')' ∈ type := by
          rcases List.append_eq_append_iff.1 heq with ⟨t, rfl, -⟩ | ⟨t, ht, hrest⟩
          · exact List.mem_append_left t hmem
          · cases t with
            | nil => simpa [ht] using hmem
            | cons d t =>
              cases hrest
              exact absurd (ht ▸ List.mem_append_right type List.mem_cons_self) hnot
        have hword : ¬(type ≠ [] ∧ type.all isWordChar = true) := by
          rintro ⟨-, hall⟩
          exact absurd (List.all_eq_true.1 hall _ htype) (by decide)
        exact if_neg hword

/-- A record that opens and ends with a closing parenthesis has a body up to it. -/
theorem exists_body_of_opening? {id : Nat} {type body : List Char}
    (h : opening? p = some (id, type, body)) (hlast : p.getLast? = some ')') :
    ∃ parameters, body = parameters ++ [')'] := by
  obtain ⟨a, b, rfl, -, -, hb, -⟩ := exists_of_opening? h
  obtain ⟨-, hb⟩ := splitAt?_eq_some_iff.1 hb
  have hsplit : b.takeWhile isBlank ++ (type ++ '(' :: body) = b := by
    rw [← hb, trimStart, List.takeWhile_append_dropWhile]
  have hlast' : b.getLast? = some ')' := getLast?_of_append_cons (s := '#' :: a) hlast (by decide)
  rw [← hsplit, ← List.append_assoc] at hlast'
  exact List.getLast?_eq_some_iff.1 (getLast?_of_append_cons hlast' (by decide))

/-- **A text behind a closing parenthesis is part of the record**, unless it is a mere semicolon. -/
theorem read?_append_eq_iff (hstart : startsRecord p = true) (htrim : trim p = p)
    (hclose : p.getLast? = some ')') (hhead : ∀ c, q.head? = some c → isBlank c = false)
    (hlast : q.getLast? = some ';') :
    read? (p ++ q) = read? p ↔ read? p = none ∨ q = [';'] := by
  have htrim' : trim (p ++ q) = p ++ q := by
    have hp : p ≠ [] := by
      rintro rfl
      cases hclose
    refine Text.trim_eq_self_iff.2 ⟨?_, ?_⟩
    · rw [List.head?_append_of_ne_nil _ hp]
      exact (Text.trim_eq_self_iff.1 htrim).1
    · rw [List.getLast?_append, hlast]
      intro c hc
      cases hc
      decide
  rw [read?_eq, read?_eq, htrim', htrim]
  cases hopen : opening? p with
  | none => simp [opening?_append_eq_none hstart hclose hopen]
  | some o =>
    obtain ⟨id, type, body⟩ := o
    obtain ⟨parameters, rfl⟩ := exists_body_of_opening? hopen hclose
    have hbody := closeBody?_append_eq_iff (s := parameters) hhead hlast
    simp only [opening?_append hopen, Option.bind_some, closeBody?_concat, List.append_assoc,
      List.singleton_append, Option.map_some]
    rw [← hbody]
    cases closeBody? (parameters ++ ')' :: q) with
    | none => simp
    | some parameters' => simp

end Record

end BimAudit.Step
