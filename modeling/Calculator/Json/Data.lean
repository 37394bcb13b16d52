import Calculator.Json.Writer

/-!
# Data to be written

What is written as a document is handed over as data, and the keys of its mappings are data
themselves. A document has texts for keys, so a mapping with any other key is written neither as a
value nor as a text. A document handed over as data has texts for keys, so it is written, and comes
out as it is.
-/

namespace Calculator.Json

inductive Data where
  | leaf (v : Json)
  | list (items : List Data)
  | map (entries : List (Data × Data))

inductive WriteFault where
  | keyNotText
deriving DecidableEq, Repr

def WriteFault.message : WriteFault → String
  | .keyNotText => "key must be a string"

namespace Data

def text (s : String) : Data := .leaf (.string s)

def asKey : Data → Except WriteFault String
  | .leaf (.string s) => .ok s
  | _ => .error .keyNotText

mutual

def value : Data → Except WriteFault Json
  | .leaf v => .ok v
  | .list items => do return .array (← itemValues items)
  | .map entries => do return .object (← entryValues entries [])

def itemValues : List Data → Except WriteFault (List Json)
  | [] => .ok []
  | data :: rest => do
    let v ← data.value
    return v :: (← itemValues rest)

def entryValues : List (Data × Data) → List (String × Json) →
    Except WriteFault (List (String × Json))
  | [], done => .ok done
  | (key, data) :: rest, done => do
    let key ← key.asKey
    let v ← data.value
    entryValues rest (put key v done)

end

mutual

def layOut (spelling : Spelling) (depth : Nat) : Data → Except WriteFault (List Char)
  | .leaf v => .ok (write spelling v)
  | .list [] => .ok ['[', ']']
  | .list (data :: rest) => do
    let first ← data.layOut spelling (depth + 1)
    let others ← itemTexts spelling depth rest
    return '[' :: newline (depth + 1) ++ first ++ others
  | .map [] => .ok ['\x7b', '\x7d']
  | .map ((key, data) :: rest) => do
    let key ← key.asKey
    let first ← data.layOut spelling (depth + 1)
    let others ← entryTexts spelling depth rest
    return '\x7b' :: newline (depth + 1) ++ writeString spelling key ++
      ':' :: ' ' :: first ++ others

def itemTexts (spelling : Spelling) (depth : Nat) : List Data → Except WriteFault (List Char)
  | [] => .ok (newline depth ++ [']'])
  | data :: rest => do
    let first ← data.layOut spelling (depth + 1)
    let others ← itemTexts spelling depth rest
    return ',' :: newline (depth + 1) ++ first ++ others

def entryTexts (spelling : Spelling) (depth : Nat) : List (Data × Data) →
    Except WriteFault (List Char)
  | [] => .ok (newline depth ++ ['\x7d'])
  | (key, data) :: rest => do
    let key ← key.asKey
    let first ← data.layOut spelling (depth + 1)
    let others ← entryTexts spelling depth rest
    return ',' :: newline (depth + 1) ++ writeString spelling key ++ ':' :: ' ' :: first ++ others

end

end Data

mutual

def data : Json → Data
  | .array items => .list (itemsData items)
  | .object members => .map (membersData members)
  | v => .leaf v

def itemsData : List Json → List Data
  | [] => []
  | v :: rest => v.data :: itemsData rest

def membersData : List (String × Json) → List (Data × Data)
  | [] => []
  | (key, v) :: rest => (.text key, v.data) :: membersData rest

end

theorem asKey_text (s : String) : (Data.text s).asKey = .ok s := rfl

mutual

theorem value_data : (v : Json) → v.data.value = .ok v.sorted
  | .null | .bool _ | .whole _ | .float _ | .string _ => by simp only [data, Data.value, sorted]
  | .array items => by
    simp only [data, Data.value, itemValues_itemsData items, sorted,
      bind, Except.bind, pure, Except.pure]
  | .object members => by
    simp only [data, Data.value, entryValues_membersData members [],
      sorted, ofMembers, putAll, bind, Except.bind, pure, Except.pure]

theorem itemValues_itemsData : (items : List Json) →
    Data.itemValues (itemsData items) = .ok (sortedItems items)
  | [] => by simp only [itemsData, Data.itemValues, sortedItems]
  | v :: rest => by
    simp only [itemsData, Data.itemValues, value_data v, itemValues_itemsData rest,
      sortedItems, bind, Except.bind, pure, Except.pure]

theorem entryValues_membersData : (members done : List (String × Json)) →
    Data.entryValues (membersData members) done =
      .ok ((sortedMembers members).foldl (fun done m => put m.1 m.2 done) done)
  | [], done => by simp only [membersData, Data.entryValues, sortedMembers, List.foldl_nil]
  | (key, v) :: rest, done => by
    simp only [membersData, Data.entryValues, asKey_text, value_data v,
      entryValues_membersData rest, sortedMembers, List.foldl_cons, bind, Except.bind]

end

mutual

theorem layOut_data (spelling : Spelling) (depth : Nat) :
    (v : Json) → v.data.layOut spelling depth = .ok (layOut spelling depth v)
  | .null | .bool _ | .whole _ | .float _ | .string _ => by simp only [data, Data.layOut, layOut]
  | .array [] => by simp only [data, itemsData, Data.layOut, layOut]
  | .array (v :: rest) => by
    simp only [data, itemsData, Data.layOut, layOut, layOut_data spelling (depth + 1) v,
      itemTexts_itemsData spelling depth rest, bind, Except.bind, pure, Except.pure]
  | .object [] => by simp only [data, membersData, Data.layOut, layOut]
  | .object ((key, v) :: rest) => by
    simp only [data, membersData, Data.layOut, layOut, asKey_text,
      layOut_data spelling (depth + 1) v,
      entryTexts_membersData spelling depth rest, bind, Except.bind, pure, Except.pure]

theorem itemTexts_itemsData (spelling : Spelling) (depth : Nat) :
    (items : List Json) →
    Data.itemTexts spelling depth (itemsData items) = .ok (layOutItems spelling depth items)
  | [] => by simp only [itemsData, Data.itemTexts, layOutItems]
  | v :: rest => by
    simp only [itemsData, Data.itemTexts, layOutItems, layOut_data spelling (depth + 1) v,
      itemTexts_itemsData spelling depth rest, bind, Except.bind, pure, Except.pure]

theorem entryTexts_membersData (spelling : Spelling) (depth : Nat) :
    (members : List (String × Json)) →
    Data.entryTexts spelling depth (membersData members) =
      .ok (layOutMembers spelling depth members)
  | [] => by simp only [membersData, Data.entryTexts, layOutMembers]
  | (key, v) :: rest => by
    simp only [membersData, Data.entryTexts, layOutMembers, asKey_text,
      layOut_data spelling (depth + 1) v,
      entryTexts_membersData spelling depth rest, bind, Except.bind, pure, Except.pure]

end

end Calculator.Json
