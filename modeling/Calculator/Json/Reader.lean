import Calculator.Json.Token

/-!
# Reading documents

Lists and objects are read by loops over their items that leave open what an item is, so the same
loops serve any document and records of a known shape. A value may nest lists and objects 127 deep.

One fuel, more than the number of characters of the whole text, is handed to every loop. A loop
takes a character with each step, so it never runs out.
-/

namespace Calculator.Json

def readItems {σ : Type} (item : σ → Read σ) : (fuel : Nat) → (first : Bool) → σ → Read σ
  | 0, _, _, cs => faultAt cs .endInList
  | fuel + 1, first, state, cs =>
    match skipSpace cs with
    | [] => faultAt [] .endInList
    | c :: rest =>
      if c = ']' then .ok (state, rest)
      else if first then do
        let (state, rest) ← item state (c :: rest)
        readItems item fuel false state rest
      else if c = ',' then
        match skipSpace rest with
        | [] => faultAt [] .endInValue
        | d :: rest =>
          if d = ']' then faultIn (d :: rest) .trailingComma
          else do
            let (state, rest) ← item state (d :: rest)
            readItems item fuel false state rest
      else faultIn (c :: rest) .expectedListCommaOrEnd

def readColon : Read Unit := fun cs =>
  match skipSpace cs with
  | [] => faultAt [] .endInObject
  | c :: rest => if c = ':' then .ok ((), rest) else faultIn (c :: rest) .expectedColon

def readMember {σ : Type} (member : σ → String → Read σ) (fuel : Nat)
    (state : σ) : Read σ := fun cs => do
  let (key, cs) ← readString fuel cs
  member state key cs

def readMembers {σ : Type} (member : σ → String → Read σ) : (fuel : Nat) →
    (first : Bool) → σ → Read σ
  | 0, _, _, cs => faultAt cs .endInObject
  | fuel + 1, first, state, cs =>
    match skipSpace cs with
    | [] => faultAt [] .endInObject
    | c :: rest =>
      if c = '\x7d' then .ok (state, rest)
      else if first then
        if c = '"' then do
          let (state, rest) ← readMember member fuel state rest
          readMembers member fuel false state rest
        else faultIn (c :: rest) .keyMustBeString
      else if c = ',' then
        match skipSpace rest with
        | [] => faultAt [] .endInValue
        | d :: rest =>
          if d = '"' then do
            let (state, rest) ← readMember member fuel state rest
            readMembers member fuel false state rest
          else if d = '\x7d' then faultIn (d :: rest) .trailingComma
          else faultIn (d :: rest) .keyMustBeString
      else faultIn (c :: rest) .expectedObjectCommaOrEnd

def readScalar (fuel : Nat) (c : Char) : Read Json := fun rest =>
  if c = 'n' then do
    let ((), rest) ← readWord ['u', 'l', 'l'] rest
    return (.null, rest)
  else if c = 't' then do
    let ((), rest) ← readWord ['r', 'u', 'e'] rest
    return (.bool true, rest)
  else if c = 'f' then do
    let ((), rest) ← readWord ['a', 'l', 's', 'e'] rest
    return (.bool false, rest)
  else if c = '-' then readNumber true rest
  else if isDigit c then readNumber false (c :: rest)
  else if c = '"' then do
    let (s, rest) ← readString fuel rest
    return (.string s, rest)
  else faultIn (c :: rest) .expectedValue

def readItem (value : Read Json) (done : List Json) : Read (List Json) := fun cs => do
  let (v, rest) ← value cs
  return (v :: done, rest)

def readEntry (value : Read Json) (done : List (String × Json))
    (key : String) : Read (List (String × Json)) :=
  fun cs => do
    let ((), rest) ← readColon cs
    let (v, rest) ← value rest
    return (put key v done, rest)

def readValue (fuel : Nat) : (depth : Nat) → Read Json
  | 0, cs =>
    match skipSpace cs with
    | [] => faultAt [] .endInValue
    | c :: rest => if c = '[' ∨ c = '\x7b' then faultIn (c :: rest) .tooDeep else
        readScalar fuel c rest
  | depth + 1, cs =>
    match skipSpace cs with
    | [] => faultAt [] .endInValue
    | c :: rest =>
      if c = '[' then do
        let (items, rest) ← readItems (readItem (readValue fuel depth)) fuel true [] rest
        return (.array items.reverse, rest)
      else if c = '\x7b' then do
        let (members, rest) ← readMembers (readEntry (readValue fuel depth)) fuel true [] rest
        return (.object members, rest)
      else readScalar fuel c rest

def depthLimit : Nat := 127

def readEnd (cs : List Char) : Except Fault Unit :=
  match skipSpace cs with
  | [] => .ok ()
  | c :: rest => faultIn (c :: rest) .trailingCharacters

def parse (text : List Char) : Except Fault Json := do
  let (v, rest) ← readValue (text.length + 1) depthLimit text
  readEnd rest
  return v

end Calculator.Json
