import Calculator.Failure
import Calculator.Json.Writer

/-!
# Writing documents through a sink

A document goes out token by token, and a string character by character. What takes the bytes may
refuse a chunk, and then nothing more is written. A buffer in memory refuses nothing, so the whole
text arrives in it.
-/

namespace Calculator.Json

/-- Takes one more chunk behind the bytes it has taken, or fails. -/
abbrev Sink := (taken chunk : Bytes) → Outcome Bytes

def Sink.buffer : Sink := fun taken chunk => .ok (taken ++ chunk)

def Sink.put (sink : Sink) (chunk : List Char) (taken : Bytes) : Outcome Bytes :=
  sink taken (Text.encode chunk)

theorem Sink.put_buffer (chunk : List Char) (taken : Bytes) :
    Sink.buffer.put chunk taken = .ok (taken ++ Text.encode chunk) := rfl

variable (sink : Sink) (spelling : Spelling)

def putChars : List Char → Bytes → Outcome Bytes
  | [], taken => .ok taken
  | c :: cs, taken => do
    let taken ← sink.put (spelling.char c) taken
    putChars cs taken

def putString (s : String) (taken : Bytes) : Outcome Bytes := do
  let taken ← sink.put ['"'] taken
  let taken ← putChars sink spelling s.toList taken
  sink.put ['"'] taken

mutual

def putValue : Json → Bytes → Outcome Bytes
  | .string s, taken => putString sink spelling s taken
  | .array (v :: rest), taken => do
    let taken ← sink.put ['['] taken
    let taken ← putValue v taken
    putItems rest taken
  | .object ((key, v) :: rest), taken => do
    let taken ← sink.put ['\x7b'] taken
    let taken ← putString sink spelling key taken
    let taken ← sink.put [':'] taken
    let taken ← putValue v taken
    putMembers rest taken
  | v, taken => sink.put (write spelling v) taken

def putItems : List Json → Bytes → Outcome Bytes
  | [], taken => sink.put [']'] taken
  | v :: rest, taken => do
    let taken ← sink.put [','] taken
    let taken ← putValue v taken
    putItems rest taken

def putMembers : List (String × Json) → Bytes → Outcome Bytes
  | [], taken => sink.put ['\x7d'] taken
  | (key, v) :: rest, taken => do
    let taken ← sink.put [','] taken
    let taken ← putString sink spelling key taken
    let taken ← sink.put [':'] taken
    let taken ← putValue v taken
    putMembers rest taken

end

theorem putChars_buffer (cs : List Char) (taken : Bytes) :
    putChars .buffer spelling cs taken = .ok (taken ++ Text.encode (cs.flatMap spelling.char)) := by
  induction cs generalizing taken with
  | nil => simp [putChars, Text.encode_nil]
  | cons c cs ih =>
    simp only [putChars, Sink.put_buffer, bind, Except.bind, ih, List.flatMap_cons,
      Text.encode_append, List.append_assoc]

theorem putString_buffer (s : String) (taken : Bytes) :
    putString .buffer spelling s taken = .ok (taken ++ Text.encode (writeString spelling s)) := by
  have htext : writeString spelling s = ['"'] ++ (s.toList.flatMap spelling.char ++ ['"']) := rfl
  simp only [putString, Sink.put_buffer, bind, Except.bind, putChars_buffer,
    htext, Text.encode_append, List.append_assoc]

mutual

theorem putValue_buffer : (v : Json) → (taken : Bytes) →
    putValue .buffer spelling v taken = .ok (taken ++ Text.encode (write spelling v))
  | .null, _ | .bool _, _ | .whole _, _ | .float _, _ | .array [], _ | .object [], _ => rfl
  | .string s, taken => putString_buffer spelling s taken
  | .array (v :: rest), taken => by
    have htext : write spelling (.array (v :: rest)) = ['['] ++
        (write spelling v ++ writeItems spelling rest) := by
      simp [write]
    simp only [putValue, Sink.put_buffer, bind, Except.bind, putValue_buffer v,
      putItems_buffer rest, htext, Text.encode_append, List.append_assoc]
  | .object ((key, v) :: rest), taken => by
    have htext : write spelling (.object ((key, v) :: rest)) =
        ['\x7b'] ++ (writeString spelling key ++
          ([':'] ++ (write spelling v ++ writeMembers spelling rest))) := by
      simp [write]
    simp only [putValue, Sink.put_buffer, bind, Except.bind, putString_buffer, putValue_buffer v,
      putMembers_buffer rest, htext, Text.encode_append, List.append_assoc]

theorem putItems_buffer : (items : List Json) → (taken : Bytes) →
    putItems .buffer spelling items taken = .ok (taken ++ Text.encode (writeItems spelling items))
  | [], _ => by
    simp only [putItems, Sink.put_buffer, writeItems]
  | v :: rest, taken => by
    have htext : writeItems spelling (v :: rest) = [','] ++
        (write spelling v ++ writeItems spelling rest) := by
      simp [writeItems]
    simp only [putItems, Sink.put_buffer, bind, Except.bind, putValue_buffer v,
      putItems_buffer rest, htext, Text.encode_append, List.append_assoc]

theorem putMembers_buffer : (ms : List (String × Json)) → (taken : Bytes) →
    putMembers .buffer spelling ms taken = .ok (taken ++ Text.encode (writeMembers spelling ms))
  | [], _ => by
    simp only [putMembers, Sink.put_buffer, writeMembers]
  | (key, v) :: rest, taken => by
    have htext : writeMembers spelling ((key, v) :: rest) =
        [','] ++ (writeString spelling key ++
          ([':'] ++ (write spelling v ++ writeMembers spelling rest))) := by
      simp [writeMembers]
    simp only [putMembers, Sink.put_buffer, bind, Except.bind, putString_buffer, putValue_buffer v,
      putMembers_buffer rest, htext, Text.encode_append, List.append_assoc]

end

end Calculator.Json
