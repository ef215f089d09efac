/-!
# JSON values

Objects keep their members in the order of the text, repeated names included; what a repetition
means is for the reader of the object to say. Whole numbers that fit a 64-bit word are kept exactly.
A text may be well-formed and still hold parts without a value, which only a reader that leaves them
out can put up with.
-/

namespace BimAudit

/-- A JSON number. -/
inductive Json.Number where
  /-- A whole number that fits an unsigned 64-bit word. -/
  | natural (n : Nat)
  /-- A whole number below zero that fits a signed 64-bit word, by its absolute value. -/
  | negative (n : Nat)
  /-- Any other number. -/
  | real (x : Float)

/-- A JSON value. -/
inductive Json where
  | null
  | bool (b : Bool)
  | number (n : Json.Number)
  | string (s : String)
  | array (items : List Json)
  | object (members : List (String × Json))
  /-- Well-formed text that has no value: a number too large for binary64, a string with half a
  surrogate pair, or what is nested too deep. -/
  | void

namespace Json

instance : Inhabited Json := ⟨null⟩

/-- A whole number as a value. -/
def nat (n : Nat) : Json := number (.natural n)

/-- A string, or null if there is none. -/
def optional (s : Option String) : Json := (s.map string).getD null

/-- The last value given to a name. -/
def member? (name : String) : Json → Option Json
  | object ms => (ms.reverse.find? (·.1 = name)).map (·.2)
  | _ => none

/-- The string that the value is. -/
def string? : Json → Option String
  | string s => some s
  | _ => none

/-- The whole number that the value is. -/
def nat? : Json → Option Nat
  | number (.natural n) => some n
  | _ => none

/-- The truth value that the value is. -/
def bool? : Json → Option Bool
  | bool b => some b
  | _ => none

/-- The items of the array that the value is. -/
def array? : Json → Option (List Json)
  | array items => some items
  | _ => none

/-- The members of the object that the value is. -/
def object? : Json → Option (List (String × Json))
  | object ms => some ms
  | _ => none

/-- Null stands for an absent value; anything else has to be readable. -/
def nullable? {α : Type} (read : Json → Option α) : Json → Option (Option α)
  | null => some none
  | j => (read j).map some

/-- A name out of a fixed list: a string, or an object with the name and nothing behind it. -/
def choice? : Json → Option String
  | string s => some s
  | object [(s, null)] | object [(s, object [])] => some s
  | _ => none

/-- The values of named fields. An object gives them by name, in any order, and each at most once;
an array gives the first ones by position. -/
def fields? (names : List String) : Json → Option (List (Option Json))
  | object ms =>
    if names.all fun n => (ms.filter (·.1 = n)).length ≤ 1 then
      some (names.map fun n => (ms.find? (·.1 = n)).map (·.2))
    else none
  | array items =>
    if items.length ≤ names.length then
      some (items.map some ++ List.replicate (names.length - items.length) none)
    else none
  | _ => none

/-- The values of named fields, where an absent field of an object is null and an array has to give
every field. -/
def record? (names : List String) (j : Json) : Option (List Json) :=
  match j with
  | array items => if items.length = names.length then some items else none
  | _ => (fields? names j).map (·.map (·.getD null))

/-- Splits a value into its tag and what remains: the other members of an object, or the other
items of an array. -/
def tagged? (tag : String) : Json → Option (Json × Json)
  | object ms => (ms.find? (·.1 = tag)).map fun t => (t.2, object (ms.filter (·.1 ≠ tag)))
  | array (t :: items) => some (t, array items)
  | _ => none

/-- A name out of a list: the name itself, or its place in the list. -/
def nameOrPlace? (names : List String) : Json → Option String
  | string s => some s
  | number (.natural n) => names[n]?
  | _ => none

mutual

/-- Every part has a value. -/
def isSound : Json → Bool
  | array items => areSound items
  | object members => membersAreSound members
  | void => false
  | null | bool _ | number _ | string _ => true

/-- Every part of every item has a value. -/
def areSound : List Json → Bool
  | [] => true
  | j :: js => j.isSound && areSound js

/-- Every part of every member has a value. -/
def membersAreSound : List (String × Json) → Bool
  | [] => true
  | (_, j) :: ms => j.isSound && membersAreSound ms

end

end Json

end BimAudit
