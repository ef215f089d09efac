import BimAudit.Text.Ascii
import BimAudit.Xml.Reference

/-!
# Events

The reader of XML turns a text into a list of events. Names are local names, without what stands
before the first colon. Tags have to match and markup has to be complete; the first place where this
fails ends the list with the event `malformed`. What may stand where is not decided here.

* `events`: the events of a text.
-/

namespace BimAudit.Xml

/-- What stands in an opening tag. -/
structure Tag where
  name : String
  /-- The attributes in order, or `none` if they are not well-formed. -/
  attributes : Option (List (String × String))
deriving DecidableEq, Repr

/-- A piece of an XML text. -/
inductive Event where
  /-- An opening tag. -/
  | start (tag : Tag)
  /-- An element without content in a single tag. -/
  | empty (tag : Tag)
  /-- A closing tag. -/
  | close
  /-- Text without the blanks around it, or `none` if a reference in it has no meaning. -/
  | text (content : Option String)
  /-- Text in a CDATA section. -/
  | cdata (content : String)
  /-- A comment, a processing instruction, a declaration or a document type. -/
  | other
  /-- Markup that cannot be read. -/
  | malformed
deriving DecidableEq, Repr

/-! ### Names and attributes -/

/-- A name without what stands before its first colon. -/
def localName (name : List Char) : List Char :=
  match name.dropWhile (· ≠ ':') with
  | ':' :: r => r
  | _ => name

/-- Drops the white space in front. -/
def skip (s : List Char) : List Char := s.dropWhile Text.isSpace

/-- One attribute in front: its name, its value as written, and what follows. -/
def attribute? (s : List Char) : Option (List Char × List Char × List Char) :=
  match s with
  | [] => none
  | c :: r =>
    let inName (c : Char) : Bool := c ≠ '=' && !Text.isSpace c
    let name := c :: r.takeWhile inName
    match skip (r.dropWhile inName) with
    | '=' :: r =>
      match skip r with
      | q :: r =>
        if q = '"' ∨ q = '\'' then
          match r.dropWhile (· ≠ q) with
          | _ :: rest => some (name, r.takeWhile (· ≠ q), rest)
          | [] => none
        else none
      | [] => none
    | _ => none

theorem length_attribute? {s name value rest : List Char}
    (h : attribute? s = some (name, value, rest)) : rest.length < s.length := by
  unfold attribute? at h
  split at h
  · cases h
  · next c r =>
    simp only at h
    split at h
    · next r₁ h₁ =>
      split at h
      · next q r₂ h₂ =>
        split at h
        · split at h
          · next x rest' h₃ =>
            cases h
            have l₁ := Text.length_dropWhile_le Text.isSpace
              (r.dropWhile fun c => decide (c ≠ '=') && !Text.isSpace c)
            have l₀ := Text.length_dropWhile_le (fun c => decide (c ≠ '=') && !Text.isSpace c) r
            have l₂ := Text.length_dropWhile_le Text.isSpace r₁
            have l₃ := Text.length_dropWhile_le (fun c => decide (c ≠ q)) r₂
            simp only [skip] at h₁ h₂
            rw [h₁] at l₁
            rw [h₂] at l₂
            rw [h₃] at l₃
            simp only [List.length_cons] at *
            omega
          · cases h
        · cases h
      · cases h
    · cases h

/-- The attributes of a tag behind its name, where `seen` are the full names that came before. No
name may come twice. -/
def attributes? (seen : List (List Char)) (s : List Char) : Option (List (String × String)) :=
  match _hs : skip s with
  | [] => some []
  | _ :: _ =>
    match _h : attribute? (skip s) with
    | none => none
    | some (name, value, rest) =>
      if seen.contains name then none
      else do
        let value ← unescape? value
        let others ← attributes? (name :: seen) rest
        return (String.ofList (localName name), String.ofList value) :: others
termination_by s.length
decreasing_by
  have l₁ := length_attribute? _h
  have l₂ := Text.length_dropWhile_le Text.isSpace s
  simp only [skip] at l₁
  omega

/-- A character of a tag name. -/
def inTagName (c : Char) : Bool := !Text.isSpace c

/-- The tag with the given content. -/
def tagOf (content : List Char) : Tag :=
  ⟨String.ofList (localName (content.takeWhile inTagName)),
    attributes? [] (content.dropWhile inTagName)⟩

/-! ### Markup -/

/-- Splits a text at the first place where the characters `p` occur, which are dropped. -/
def splitAt? (p s : List Char) : Option (List Char × List Char) :=
  (Text.position? p s).map fun n => (s.take n, s.drop (n + p.length))

/-- The content of a tag and what follows its closing bracket. A bracket inside quotes does not
count; the first argument is the quote that is open. -/
def tagContent? : Option Char → List Char → Option (List Char × List Char)
  | _, [] => none
  | none, c :: r =>
    if c = '>' then some ([], r)
    else
      (tagContent? (if c = '\'' ∨ c = '"' then some c else none) r).map fun p => (c :: p.1, p.2)
  -- inside quotes only the same quote counts
  | some q, c :: r => (tagContent? (if c = q then none else some q) r).map fun p => (c :: p.1, p.2)

/-- The content of a document type and what follows its closing bracket; brackets inside have to be
balanced, and the first argument is the number of open ones. -/
def doctypeContent? : Nat → List Char → Option (List Char × List Char)
  | _, [] => none
  | n, c :: r =>
    if c = '>' ∧ n = 0 then some ([], r)
    else
      let n := if c = '<' then n + 1 else if c = '>' then n - 1 else n
      (doctypeContent? n r).map fun p => (c :: p.1, p.2)

/-- Reads what follows `<!`. -/
def declaration? (s : List Char) : Option (Event × List Char) :=
  match s with
  | '-' :: '-' :: r => (splitAt? ['-', '-', '>'] r).map fun p => (.other, p.2)
  | '[' :: r =>
    if "CDATA[".toList.isPrefixOf r then
      (splitAt? [']', ']', '>'] (r.drop 6)).map fun p => (.cdata (String.ofList p.1), p.2)
    else none
  | s => do
    let (content, rest) ← doctypeContent? 0 s
    if (content.take 7).map Char.toUpper = "DOCTYPE".toList ∧ skip (content.drop 7) ≠ [] then
      return (.other, rest)
    else none

/-- Reads what follows `<?`. -/
def instruction? (s : List Char) : Option (Event × List Char) :=
  match s with
  | '>' :: _ => none
  | s => (splitAt? ['?', '>'] s).map fun p => (.other, p.2)

/-- The name in a closing tag, without the white space at its end. -/
def closingName (content : List Char) : List Char :=
  if content.all Text.isSpace then content
  else (content.reverse.dropWhile Text.isSpace).reverse

/-- Reads what follows `<`, given the full names of the open elements, and gives the event with the
open elements behind it and the rest of the text. -/
def markup? (opened : List (List Char)) (s : List Char) :
    Option (Event × List (List Char) × List Char) :=
  match s with
  | [] => none
  | '!' :: r => (declaration? r).map fun (e, rest) => (e, opened, rest)
  | '?' :: r => (instruction? r).map fun (e, rest) => (e, opened, rest)
  | '/' :: r =>
    match tagContent? none r, opened with
    | some (content, rest), name :: opened =>
      if closingName content = name then some (.close, opened, rest) else none
    | _, _ => none
  | s =>
    (tagContent? none s).map fun (content, rest) =>
      if content.getLast? = some '/' then (.empty (tagOf content.dropLast), opened, rest)
      else (.start (tagOf content), content.takeWhile inTagName :: opened, rest)

/-- One event in front, with the open elements behind it and the rest of the text; `none` at the end
of the text. -/
def event? (opened : List (List Char)) (s : List Char) :
    Option (Event × List (List Char) × List Char) :=
  match skip s with
  | [] => none
  | '<' :: r => some ((markup? opened r).getD (.malformed, opened, []))
  | s =>
    -- the blanks in front are already gone
    let text := (s.takeWhile (· ≠ '<')).reverse.dropWhile Text.isSpace
    some (.text ((unescape? text.reverse).map String.ofList), opened, s.dropWhile (· ≠ '<'))

/-- Takes events while there are any. Every event takes at least one character, so as many events as
there are characters are enough. -/
def run : Nat → List (List Char) → List Char → List Event
  | 0, _, _ => []
  | n + 1, opened, s =>
    match event? opened s with
    | none => []
    | some (e, opened, rest) => e :: run n opened rest

/-- The events of a text, which may begin with a byte order mark. -/
def events (s : List Char) : List Event :=
  run s.length [] (if s.head? = some '\uFEFF' then s.drop 1 else s)

end BimAudit.Xml
