import Calculator.Proofs.Encoding.Base64
import Calculator.Proofs.Encoding.Hex
import Calculator.Proofs.FileTree.Opening
import Calculator.Proofs.Hashing.Containment
import Calculator.Request.Hash

/-!
# Encodings of one input

The same bytes may be given as digits, as base64 text, as the content of a file or as a text. All of
these stand for sources that read as those bytes, so what is hashed does not depend on how it was
given.
-/

namespace Calculator

/-- An input of some type that stands for bytes. -/
inductive Gives (settings : Settings) (tree : FileTree) (bytes : Bytes) : InputType → String → Prop
  | hex {digits : List Char} {raw : String} (hspells : Hex.Spells bytes digits)
      (hraw : Text.IsPadded digits raw) :
    Gives settings tree bytes .hex raw
  | base64 {raw : String} (hraw : Text.IsPadded (Base64.encode bytes) raw) :
      Gives settings tree bytes .base64 raw
  | file {place : Location} {raw : String}
      (hpermit : settings.files.permit tree (Text.trim raw) = .ok place)
    (hfile : tree.node? place = some (.file bytes)) (hnames : ∀ name ∈ place,
      FileTree.IsEntryName name)
    (hsize : bytes.length ≤ settings.limits.maxFileSize.toNat) : Gives settings tree bytes .file raw
  | text {raw : String} (hraw : Text.encode raw.toList = bytes) :
      Gives settings tree bytes .text raw

namespace HashSource

variable {settings : Settings} {tree : FileTree} {bytes : Bytes} {digits : List Char}
  {type : InputType} {raw : String} {place : Location}

theorem ofHex_of_spells (hne : bytes ≠ []) (hspells : Hex.Spells bytes digits)
    (hraw : Text.IsPadded digits raw)
    (field : String) : ofHex field (Text.trim raw) = .ok (.bytes bytes) := by
  have hdigit : ∀ c ∈ digits, isLowerHexDigit c.toLower = true :=
    fun c hc => hspells.isLowerHexDigit hc
  have htrim := Text.trim_of_isPadded hraw fun c hc => Hex.isBlank_of_toLower (hdigit c hc)
  have hascii := Text.encode_of_ascii fun c hc => Hex.ascii_of_toLower (hdigit c hc)
  have hlength := hspells.length
  have hpos : 0 < bytes.length := List.length_pos_iff.2 hne
  have hempty : (Text.encode digits).isEmpty = false := by
    rw [List.isEmpty_eq_false_iff, ← List.length_pos_iff, hascii, List.length_map]
    omega
  have hall : (Text.encode digits).all Hex.isDigit = true := by
    rw [hascii, List.all_map, List.all_eq_true]
    intro c hc
    exact Hex.isDigit_of_toLower (hdigit c hc)
  simp only [ofHex, htrim, String.toList_ofList, hempty, hall, Hex.decode_of_spells hspells,
    Bool.not_true, Bool.or_self, Bool.false_eq_true, if_false]

theorem ofBase64_of_isPadded (hraw : Text.IsPadded (Base64.encode bytes) raw) (field : String) :
    ofBase64 field (Text.trim raw) = .ok (.bytes bytes) := by
  have htrim := Text.trim_of_isPadded hraw fun c hc => Base64.isBlank_of_mem_encode hc
  simp only [ofBase64, htrim, String.toList_ofList, Base64.decode_encode]

theorem ofPath_of_file (hpermit : settings.files.permit tree (Text.trim raw) = .ok place)
    (hfile : tree.node? place = some (.file bytes))
    (hnames : ∀ name ∈ place, FileTree.IsEntryName name)
    (hsize : bytes.length ≤ settings.limits.maxFileSize.toNat) (field : String) :
    ofPath settings tree field (Text.trim raw) = .ok (.file place.path bytes.length) ∧
      (HashSource.file place.path bytes.length).read tree = .ok bytes := by
  have hresolve := (FilePolicy.permit_eq_ok_iff.1 hpermit).2.1
  have hopen := FileTree.open?_path_of_resolve hresolve hfile hnames
  exact ⟨ofPath_eq_ok_iff.2 ⟨place, bytes, hpermit, hopen, hsize, rfl⟩,
    read_file hopen bytes.length⟩

theorem exists_source_of_gives (hne : bytes ≠ []) (h : Gives settings tree bytes type raw)
    (field : String) :
    ∃ source, ofInput settings tree field type raw = .ok source ∧ source.read tree = .ok bytes := by
  cases h with
  | hex hspells hraw => exact ⟨.bytes bytes, ofHex_of_spells hne hspells hraw field, rfl⟩
  | base64 hraw => exact ⟨.bytes bytes, ofBase64_of_isPadded hraw field, rfl⟩
  | file hpermit hfile hnames hsize => exact ⟨_, ofPath_of_file hpermit hfile hnames hsize field⟩
  | text hraw => exact ⟨.text raw, rfl, by rw [read, hraw]⟩

end HashSource

variable {settings : Settings} {tree : FileTree} {bytes : Bytes} {algorithm : Algorithm}
  {normalization : Normalization}

theorem Normalization.apply_ok_or_malformed (normalization : Normalization) (bytes : Bytes) :
    (∃ normalized, normalization.apply bytes = .ok normalized) ∨
      ∃ m, normalization.apply bytes = .error (.malformed m) := by
  cases normalization with
  | none => exact .inl ⟨bytes, rfl⟩
  | text => exact .inl ⟨_, rfl⟩
  | json =>
    simp only [apply, normalizeJson]
    cases Json.parse (Text.decodeLossy bytes) with
    | ok v => exact .inl ⟨_, rfl⟩
    | error fault => exact .inr ⟨_, rfl⟩

/-- What becomes of bytes does not depend on how they are given. -/
theorem HashMethod.hash_of_gives (hne : bytes ≠ []) (settings : Settings)
    (tree : FileTree) (algorithm : Algorithm) (normalization : Normalization) :
    (∃ digest normalizedSize, ∀ type raw field, Gives settings tree bytes type raw →
      ∃ file, HashMethod.hash ⟨algorithm, type, normalization⟩ settings tree field raw =
        .ok ⟨digest, bytes.length, normalizedSize, file⟩) ∨
    ∃ m, ∀ type raw field, Gives settings tree bytes type raw →
      HashMethod.hash ⟨algorithm, type, normalization⟩ settings tree field raw =
        .error (.malformed m) := by
  rcases normalization.apply_ok_or_malformed bytes with ⟨normalized, happly⟩ | ⟨m, happly⟩
  · refine .inl ⟨algorithm.hexDigest normalized, normalized.length, fun type raw field hgives => ?_⟩
    obtain ⟨source, hsource, hread⟩ := HashSource.exists_source_of_gives hne hgives field
    refine ⟨source.file?, ?_⟩
    simp only [HashMethod.hash, HashSource.hash, hsource, hread, happly,
      bind, Except.bind, pure, Except.pure]
  · refine .inr ⟨m, fun type raw field hgives => ?_⟩
    obtain ⟨source, hsource, hread⟩ := HashSource.exists_source_of_gives hne hgives field
    simp only [HashMethod.hash, HashSource.hash, hsource, hread, happly, bind, Except.bind]

def accent : Bytes := [0xC3, 0xA9]

def accentTree : FileTree where
  root := .directory [("letters", .directory [("accent", .file accent)])]
  current := ["letters"]

theorem HashMethod.hash_of_gives_accent :
    accent ≠ [] ∧
    (Gives .default accentTree accent .hex " C3a9\n" ∧
      Gives .default accentTree accent .base64 "w6k= " ∧
      Gives .default accentTree accent .file " ../letters/accent" ∧
      Gives .default accentTree accent .text "é") ∧
    ((∃ digest normalizedSize, ∀ type raw field, Gives .default accentTree accent type raw →
      ∃ file, HashMethod.hash ⟨.sha256, type, .text⟩ .default accentTree field raw =
        .ok ⟨digest, accent.length, normalizedSize, file⟩) ∨
    ∃ m, ∀ type raw field, Gives .default accentTree accent type raw →
      HashMethod.hash ⟨.sha256, type, .text⟩ .default accentTree field raw =
        .error (.malformed m)) := by
  have hne : accent ≠ [] := by decide
  have hpermit : Settings.default.files.permit accentTree (Text.trim " ../letters/accent") =
      .ok ["letters", "accent"] := by decide +kernel
  refine ⟨hne, ⟨?_, ?_, ?_, ?_⟩, hash_of_gives hne .default accentTree .sha256 .text⟩
  · have hspells : Hex.Spells accent ['C', '3', 'a', '9'] := by decide
    refine .hex hspells ⟨[' '], ['\n'], ?_, rfl⟩
    simp [Text.isBlank_space, Text.isBlank_newline]
  · exact .base64 ⟨[], [' '], by simp [Text.isBlank_space], rfl⟩
  · exact .file hpermit rfl (by decide) (by decide)
  · exact .text rfl

end Calculator
