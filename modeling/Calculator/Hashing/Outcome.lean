import Calculator.Digest.Algorithm
import Calculator.Hashing.Source
import Calculator.Normalization

/-!
# Hashing sources

A source is read, brought into normal form and hashed. In a batch every input is hashed for itself,
and one that fails leaves the others alone.
-/

namespace Calculator

structure HashOutcome where
  digest : String
  inputSize : Nat
  normalizedSize : Nat
  file : Option (String × Nat)

namespace HashSource

def file? : HashSource → Option (String × Nat)
  | .file path size => some (path, size)
  | _ => none

def hash (tree : FileTree) (algorithm : Algorithm) (normalization : Normalization)
    (source : HashSource) :
    Outcome HashOutcome := do
  let content ← source.read tree
  let normalized ← normalization.apply content
  return {
    digest := algorithm.hexDigest normalized
    inputSize := content.length
    normalizedSize := normalized.length
    file := source.file? }

end HashSource

structure BatchItem where
  input : String
  outcome : Outcome HashOutcome

def hashBatch (tree : FileTree) (algorithm : Algorithm) (normalization : Normalization)
    (inputs : List (String × Outcome HashSource)) : List BatchItem :=
  inputs.map fun (input, source) =>
    ⟨input, source.bind (HashSource.hash tree algorithm normalization)⟩

namespace Limits

def checkBatch (limits : Limits) (size : Nat) : Outcome Unit :=
  if size = 0 then .error (.validation "input_list" .nonemptyBatch)
  else if limits.maxBatchSize.toNat < size then
    .error (.validation "input_list" (.batchWithinLimit size limits.maxBatchSize))
  else .ok ()

theorem checkBatch_eq_ok_iff (limits : Limits) (size : Nat) :
    limits.checkBatch size = .ok () ↔ 1 ≤ size ∧ size ≤ limits.maxBatchSize.toNat := by
  unfold checkBatch
  split
  · next h => simp [h]
  · split
    · simp; omega
    · simp; omega

end Limits

end Calculator
