/-!
# Media types

A content type names a type and a subtype, and parameters after semicolons. The part of a subtype
behind its last plus tells what the format is made of. A content type that breaks the grammar names
nothing.
-/

namespace Calculator.Server

structure MediaType where
  type : List Char
  subtype : List Char
  suffix : Option (List Char)
deriving DecidableEq, Repr

namespace MediaType

def isTokenChar (c : Char) : Bool :=
  c.isAlphanum || "!#$%&'*+-.^_\x60|~".toList.contains c

inductive Place where
  | nameStart
  | name
  | valueStart
  | value
  | quoteStart
  | quote
  | afterQuote
deriving DecidableEq, Repr

def isQuotable (c : Char) : Bool :=
  ' ' ≤ c && c ≤ '~'

def Place.next? (c : Char) : Place → Option Place
  | nameStart => if c = ' ' then some nameStart else if isTokenChar c then some name else none
  | name => if c = '=' then some valueStart else if isTokenChar c then some name else none
  | valueStart => if c = '"' then some quoteStart else if isTokenChar c then some value else none
  | value => if c = ';' then some nameStart else if isTokenChar c then some value else none
  | quoteStart => if isQuotable c then some quote else none
  | quote => if c = '"' then some afterQuote else if isQuotable c then some quote else none
  | afterQuote => if c = ';' then some nameStart else if c = ' ' then some afterQuote else none

def Place.isEnd : Place → Bool
  | nameStart | valueStart | value | afterQuote => true
  | name | quoteStart | quote => false

def areParams (cs : List Char) : Bool :=
  (cs.foldlM (fun place c => Place.next? c place) Place.nameStart).any Place.isEnd

def ofSubtype (type cs : List Char) : MediaType :=
  let suffix := (cs.reverse.takeWhile (· ≠ '+')).reverse
  let front := cs.length - suffix.length - 1
  if front = 0 then ⟨type, cs, none⟩ else ⟨type, cs.take front, some suffix⟩

def written (contentType : String) : List Char :=
  let blank := fun c : Char => c = ' ' || c = '\t'
  let cs := (contentType.toList.dropWhile blank).reverse.dropWhile blank |>.reverse
  cs.map Char.toLower

def parse? (contentType : String) : Option MediaType :=
  let cs := written contentType
  let type := cs.takeWhile isTokenChar
  match type, cs.drop type.length with
  | _ :: _, '/' :: rest =>
    let subtype := rest.takeWhile isTokenChar
    match subtype, rest.drop subtype.length with
    | _, [] => some (ofSubtype type subtype)
    | _ :: _, ';' :: params => if areParams params then some (ofSubtype type subtype) else none
    | _, _ => none
  | _, _ => none

def isJson (m : MediaType) : Bool :=
  m.type = "application".toList && (m.subtype = "json".toList || m.suffix = some "json".toList)

end MediaType

end Calculator.Server
