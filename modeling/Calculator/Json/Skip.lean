import Calculator.Json.Token

/-!
# Skipping values

A member that nobody asks for is skipped. Skipping looks at the grammar alone: numbers of any size,
halves of surrogate pairs and any depth of nesting pass.
-/

namespace Calculator.Json

def skipExponent : List Char → Except Fault (List Char) := fun cs =>
  let cs := match cs with
    | '+' :: rest => rest
    | '-' :: rest => rest
    | _ => cs
  match cs with
  | [] => faultAt [] .invalidNumber
  | c :: rest => if isDigit c then .ok (rest.dropWhile isDigit) else
      faultIn (c :: rest) .invalidNumber

def skipExponent? (cs : List Char) : Except Fault (List Char) :=
  match cs with
  | 'e' :: rest => skipExponent rest
  | 'E' :: rest => skipExponent rest
  | _ => .ok cs

def skipFraction? (cs : List Char) : Except Fault (List Char) :=
  match cs with
  | '.' :: c :: rest =>
    if isDigit c then skipExponent? (rest.dropWhile isDigit) else faultIn (c :: rest) .invalidNumber
  | ['.'] => faultAt [] .invalidNumber
  | _ => skipExponent? cs

def skipNumber : List Char → Except Fault (List Char)
  | [] => faultAt [] .invalidNumber
  | c :: rest =>
    if c = '0' then
      match rest with
      | d :: _ => if isDigit d then faultIn rest .invalidNumber else skipFraction? rest
      | [] => .ok []
    else if isDigit c then skipFraction? (rest.dropWhile isDigit)
    else faultIn (c :: rest) .invalidNumber

def skipEscape : List Char → Except Fault (List Char)
  | [] => faultAt [] .endInString
  | c :: cs =>
    if (shortEscape? c).isSome then .ok cs
    else if c = 'u' then (·.2) <$> readHexUnit cs
    else faultIn (c :: cs) .invalidEscape

def skipString : (fuel : Nat) → List Char → Except Fault (List Char)
  | 0, cs => faultAt cs .endInString
  | _ + 1, [] => faultAt [] .endInString
  | fuel + 1, c :: cs =>
    if c = '"' then .ok cs
    else if c = '\\' then do skipString fuel (← skipEscape cs)
    else if c.toNat < 0x20 then faultAt (c :: cs) .controlCharacter
    else skipString fuel cs

def skipScalar (fuel : Nat) (c : Char) (rest : List Char) : Except Fault (List Char) :=
  if c = 'n' then (·.2) <$> readWord ['u', 'l', 'l'] rest
  else if c = 't' then (·.2) <$> readWord ['r', 'u', 'e'] rest
  else if c = 'f' then (·.2) <$> readWord ['a', 'l', 's', 'e'] rest
  else if c = '-' then skipNumber rest
  else if isDigit c then skipNumber (c :: rest)
  else if c = '"' then skipString fuel rest
  else faultIn (c :: rest) .expectedValue

inductive Enclosure where
  | list
  | object
deriving DecidableEq, Repr

namespace Enclosure

def close : Enclosure → Char
  | .list => ']'
  | .object => '\x7d'

def atEnd : Enclosure → Cause
  | .list => .endInList
  | .object => .endInObject

def expectedCommaOrEnd : Enclosure → Cause
  | .list => .expectedListCommaOrEnd
  | .object => .expectedObjectCommaOrEnd

def skipKey (fuel : Nat) : Enclosure → List Char → Except Fault (List Char)
  | .list, cs => .ok cs
  | .object, cs =>
    match skipSpace cs with
    | [] => faultAt [] .endInObject
    | c :: rest =>
      if c = '"' then do
        match skipSpace (← skipString fuel rest) with
        | [] => faultAt [] .endInObject
        | d :: rest => if d = ':' then .ok rest else faultIn (d :: rest) .expectedColon
      else faultIn (c :: rest) .keyMustBeString

end Enclosure

mutual

def skipIn : (fuel : Nat) → List Enclosure → List Char → Except Fault (List Char)
  | 0, _, cs => faultAt cs .endInValue
  | fuel + 1, around, cs =>
    match skipSpace cs with
    | [] => faultAt [] .endInValue
    | c :: rest =>
      if c = '[' then skipFirst fuel .list around rest
      else if c = '\x7b' then skipFirst fuel .object around rest
      else do
        let rest ← skipScalar fuel c rest
        skipRest fuel around rest

def skipFirst : (fuel : Nat) → Enclosure → List Enclosure → List Char → Except Fault (List Char)
  | 0, _, _, cs => faultAt cs .endInValue
  | fuel + 1, e, around, cs =>
    match skipSpace cs with
    | [] => faultAt [] e.atEnd
    | c :: rest =>
      if c = e.close then skipRest fuel around rest
      else do
        let cs ← e.skipKey fuel (c :: rest)
        skipIn fuel (e :: around) cs

def skipRest : (fuel : Nat) → List Enclosure → List Char → Except Fault (List Char)
  | _, [], cs => .ok cs
  | 0, _ :: _, cs => faultAt cs .endInValue
  | fuel + 1, e :: around, cs =>
    match skipSpace cs with
    | [] => faultAt [] e.atEnd
    | c :: rest =>
      if c = e.close then skipRest fuel around rest
      else if c = ',' then do
        let cs ← e.skipKey fuel rest
        skipIn fuel (e :: around) cs
      else faultIn (c :: rest) e.expectedCommaOrEnd

end

/-- Skips a value. Every step but the first takes a character, and twice as many steps as characters
are enough. -/
def skipValue (cs : List Char) : Except Fault (List Char) :=
  skipIn (2 * cs.length + 2) [] cs

end Calculator.Json
