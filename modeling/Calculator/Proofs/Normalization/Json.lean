import Calculator.Hashing.Outcome
import Calculator.Proofs.Json.RoundTrip
import Calculator.Proofs.Text.Utf8

/-!
# Normal forms of JSON documents

The normal form of a document is a document of the same value, and the only one in normal form. It
does not depend on how the document is rendered, so the digest of a normalized document is a digest
of its value.
-/

namespace Calculator.Normalization

open Json

variable {v : Json} {text text' out out' : List Char}

theorem normalizeJson_of_parse (h : Json.parse text = .ok v) :
    normalizeJson text = .ok (v.write .canonical) :=
  normalizeJson_eq_ok_iff.2 ⟨v, h, rfl⟩

theorem parse_of_normalizeJson (h : normalizeJson text = .ok out) :
    ∃ v, Json.parse text = .ok v ∧ Json.parse out = .ok v := by
  obtain ⟨v, hparse, rfl⟩ := normalizeJson_eq_ok_iff.1 h
  exact ⟨v, hparse, parse_write isFaithful_canonical hparse⟩

theorem normalizeJson_idempotent (h : normalizeJson text = .ok out) :
    normalizeJson out = .ok out := by
  obtain ⟨v, hparse, rfl⟩ := normalizeJson_eq_ok_iff.1 h
  exact normalizeJson_of_parse (parse_write isFaithful_canonical hparse)

theorem normalizeJson_eq_iff (h : normalizeJson text = .ok out)
    (h' : normalizeJson text' = .ok out') :
    out = out' ↔ ∃ v, Json.parse text = .ok v ∧ Json.parse text' = .ok v := by
  obtain ⟨v, hparse, hout⟩ := parse_of_normalizeJson h
  obtain ⟨v', hparse', hout'⟩ := parse_of_normalizeJson h'
  constructor
  · rintro rfl
    have hvalue : v = v' := Except.ok.inj (hout.symm.trans hout')
    exact ⟨v, hparse, hvalue ▸ hparse'⟩
  · rintro ⟨u, hu, hu'⟩
    exact Except.ok.inj (h.symm.trans ((normalizeJson_of_parse hu).trans
      ((normalizeJson_of_parse hu').symm.trans h')))

/-- The normal form of a document is a document of the same value and its own normal form, and two
documents have one normal form only if they have one value. -/
theorem normalizeJson_preserves_value (h : normalizeJson text = .ok out) :
    (∃ v, Json.parse text = .ok v ∧ Json.parse out = .ok v) ∧ normalizeJson out = .ok out ∧
      ∀ text' out', normalizeJson text' = .ok out' →
        (out = out' ↔ ∃ v, Json.parse text = .ok v ∧ Json.parse text' = .ok v) :=
  ⟨parse_of_normalizeJson h, normalizeJson_idempotent h, fun _ _ h' => normalizeJson_eq_iff h h'⟩

def duplicated : List Char :=
  "\x7b\"b\": 1.50, \"a\": [-0, \"\\u00E9\\n\"], \"b\": 18446744073709551616\x7d".toList

def duplicatedForm : List Char :=
  "\x7b\"a\":[-0.0,\"\\u00e9\\n\"],\"b\":1.8446744073709552e+19\x7d".toList

theorem normalizeJson_duplicated :
    normalizeJson duplicated = .ok duplicatedForm ∧
      (∃ v, Json.parse duplicated = .ok v ∧ Json.parse duplicatedForm = .ok v) ∧
      normalizeJson duplicatedForm = .ok duplicatedForm ∧
      ∀ text' out', normalizeJson text' = .ok out' →
        (duplicatedForm = out' ↔ ∃ v, Json.parse duplicated = .ok v ∧
          Json.parse text' = .ok v) := by
  have h : normalizeJson duplicated = .ok duplicatedForm := eq_ok_of_toOption (by decide +kernel)
  exact ⟨h, normalizeJson_preserves_value h⟩

theorem normalizeJson_of_renders (h : RendersDocument v text) (hdepth : v.depth ≤ depthLimit)
    (hkeys : DistinctKeys v) : normalizeJson text = .ok (v.sorted.write .canonical) :=
  normalizeJson_of_parse (parse_of_renders h hdepth hkeys)

theorem digest_of_normalizeJson {tree : FileTree} {source : HashSource} (algorithm : Algorithm)
    (h : normalizeJson text = .ok out) (hread : source.read tree = .ok (Text.encode text)) :
    HashOutcome.digest <$> source.hash tree algorithm .json =
      .ok (algorithm.hexDigest (Text.encode out)) := by
  simp only [HashSource.hash, hread, apply, Text.decodeLossy_encode,
    h, bind, Except.bind, pure, Except.pure, Functor.map, Except.map]

/-- All renderings of a document have one normal form, and hence one digest wherever they are read
from. -/
theorem normalizeJson_of_renderings (hdepth : v.depth ≤ 127) (hkeys : DistinctKeys v)
    (h : RendersDocument v text) (h' : RendersDocument v text') :
    ∃ out, normalizeJson text = .ok out ∧ normalizeJson text' = .ok out ∧
      ∀ (tree : FileTree) (algorithm : Algorithm) (source : HashSource),
        source.read tree = .ok (Text.encode text) ∨ source.read tree = .ok (Text.encode text') →
          HashOutcome.digest <$> source.hash tree algorithm .json =
            .ok (algorithm.hexDigest (Text.encode out)) := by
  have hform := normalizeJson_of_renders h hdepth hkeys
  have hform' := normalizeJson_of_renders h' hdepth hkeys
  refine ⟨v.sorted.write .canonical, hform, hform', fun tree algorithm source hread => ?_⟩
  rcases hread with hread | hread
  · exact digest_of_normalizeJson algorithm hform hread
  · exact digest_of_normalizeJson algorithm hform' hread

def accented : Json :=
  .object [("b", .array [.whole ⟨1, by decide, by decide⟩]), ("é", .null)]

def accentedCompact : List Char :=
  "\x7b\"b\":[1],\"\\u00e9\":null\x7d".toList

def accentedSpaced : List Char :=
  " \x7b\"\\u00E9\" : null, \"b\" :[ 1 ]\x7d\n".toList

theorem parse_accentedCompact : Json.parse accentedCompact = .ok accented := by
  cbv

theorem rendersDocument_accentedCompact : RendersDocument accented accentedCompact := by
  have hread := isRead_of_parse parse_accentedCompact
  have hwrite := renders_write isFaithful_canonical accented hread.finiteFloats
  have htext : accentedCompact = [] ++ (write .canonical accented ++ []) := by decide +kernel
  rw [htext]
  exact .document isSpace_nil hwrite isSpace_nil

theorem rendersDocument_accentedSpaced : RendersDocument accented accentedSpaced := by
  have hspace : IsSpace [' '] := by simp [IsSpace, isSpace]
  have hnewline : IsSpace ['\n'] := by simp [IsSpace, isSpace]
  have hone : Renders (.whole ⟨1, by decide, by decide⟩) ['1'] := renders_writeWhole _
  have hlist : Renders (.array [.whole ⟨1, by decide, by decide⟩]) ['[', ' ', '1', ' ', ']'] :=
    .array (.some hspace hone hspace .close)
  have hkey : SpellsString "b" ['"', 'b', '"'] :=
    .quoted (u := ['b']) (.cons (.raw (by decide) (by decide) (by decide)) .nil)
  have hb := RendersMember.member hkey hspace isSpace_nil hlist
  have haccent : SpellsUnit 'é'.toNat ['0', '0', 'E', '9'] :=
    .digits (.lower (by decide)) (.lower (by decide)) (.upper (by decide)) (.lower (by decide))
  have hkey' : SpellsString "é" ['"', '\\', 'u', '0', '0', 'E', '9', '"'] :=
    .quoted (u := ['\\', 'u', '0', '0', 'E', '9']) (.cons (.unit (by decide) haccent) .nil)
  have he := RendersMember.member hkey' hspace hspace Renders.null
  exact .document hspace (.object (.swap _ _ _) (.some isSpace_nil he isSpace_nil
    (.part hspace hb isSpace_nil .close))) hnewline

theorem normalizeJson_accented :
    accented.depth ≤ 127 ∧ DistinctKeys accented ∧ RendersDocument accented accentedCompact ∧
      RendersDocument accented accentedSpaced ∧
      ∃ out, normalizeJson accentedCompact = .ok out ∧ normalizeJson accentedSpaced = .ok out ∧
        ∀ (tree : FileTree) (algorithm : Algorithm) (source : HashSource),
          source.read tree = .ok (Text.encode accentedCompact) ∨
            source.read tree = .ok (Text.encode accentedSpaced) →
            HashOutcome.digest <$> source.hash tree algorithm .json =
              .ok (algorithm.hexDigest (Text.encode out)) := by
  have hread := isRead_of_parse parse_accentedCompact
  have hkeys := hread.ascendingKeys.distinctKeys
  exact ⟨hread.depth_le, hkeys, rendersDocument_accentedCompact, rendersDocument_accentedSpaced,
    normalizeJson_of_renderings hread.depth_le hkeys rendersDocument_accentedCompact
      rendersDocument_accentedSpaced⟩

end Calculator.Normalization
