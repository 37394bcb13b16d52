import Calculator.Proofs.Request.Check
import Calculator.Proofs.Tool.Result

/-!
# Tools read their own fields

Every tool reads its fields by checks in an order of its own. A call fails with the first check that
finds a fault, so its text depends on no field that is examined later only, and its whole result
depends on no field but those of the tool.
-/

namespace Calculator

open Json (Shape)
open Request

variable {settings : Settings} {tree : FileTree} {args args' : Arguments}
  {tool : Tool} {failure : Failure}

namespace Request.Check

def neededForPower : Check :=
  .satisfied "exponent" ["operation", "exponent"] (by decide)
    (fun args => do
      let operation ← Request.required Shape.choice args "operation"
      let exponent ← Request.optional Shape.float args "exponent"
      return (operation, exponent))
    (fun h => by simp [h.required, h.optional])
    (fun (operation, exponent) => operation = AdvancedOperation.power ∧ exponent.isNone)
      .neededForPower

def decimalsInRange : Check :=
  .satisfied "decimals" ["decimals"] (by decide)
    (fun args => Request.optional Shape.uint32 args "decimals")
    (fun h => h.optional (by decide))
    (fun decimals => decimals.any fun d => maxDecimals < d.toNat) .decimalsInRange

def hexDigest : Check :=
  .satisfied "expected_hash" ["expected_hash"] (by decide)
    (fun args => Request.required Shape.string args "expected_hash")
    (fun h => h.required (by decide))
    (fun given => (Request.failure? (expectedHash given)).isSome) .hexDigest

def format : Check :=
  .optional (Shape.choice (α := ResponseFormat)) "response_format"

def normalization : Check :=
  .optional (Shape.choice (α := Normalization)) "normalization"

end Request.Check

namespace Tool

def fields (tool : Tool) : List String :=
  tool.parameters.map (·.name)

/-- The checks of a tool in its own order. A comparison looks for the expected digest first, and for
its form behind the input; what an operation demands of other fields is looked at last. -/
def checks : Tool → List Check
  | .arithmetic => [
    .required (Shape.choice (α := BasicOperation)) "operation",
    .required Shape.float "a",
    .required Shape.float "b",
    .format]
  | .advancedMath => [
    .required (Shape.choice (α := AdvancedOperation)) "operation",
    .required Shape.float "value",
    .optional Shape.float "exponent",
    .optional Shape.uint32 "decimals",
    .format,
    .neededForPower,
    .decimalsInRange]
  | .trigonometry => [
    .required (Shape.choice (α := TrigOperation)) "operation",
    .required Shape.float "angle",
    .optional Shape.bool "use_radians",
    .format]
  | .statistics => [
    .required (Shape.choice (α := StatisticsOperation)) "operation",
    .required (Shape.list Shape.float) "values",
    .format]
  | .conversion => [
    .required (Shape.choice (α := UnitFamily)) "unit_type",
    .required Shape.float "value",
    .required Shape.string "from_unit",
    .required Shape.string "to_unit",
    .format]
  | .hash => [
    .required (Shape.choice (α := Algorithm)) "algorithm",
    .required (Shape.choice (α := InputType)) "input_type",
    .required Shape.string "input_data",
    .normalization,
    .format]
  | .comparison => [
    .required Shape.string "expected_hash",
    .required (Shape.choice (α := Algorithm)) "algorithm",
    .required (Shape.choice (α := InputType)) "input_type",
    .required Shape.string "input_data",
    .hexDigest,
    .normalization,
    .format]
  | .batchHash => [
    .required (Shape.choice (α := Algorithm)) "algorithm",
    .required (Shape.choice (α := InputType)) "input_type",
    .required (Shape.list Shape.string) "input_list",
    .normalization,
    .format]

theorem mem_fields_iff (tool : Tool) (field : String) :
    field ∈ tool.fields ↔ ∃ c ∈ tool.checks, field ∈ c.examines := by
  have hfields : tool.fields ⊆ tool.checks.flatMap (·.examines) := by cases tool <;> decide
  have hchecks : tool.checks.flatMap (·.examines) ⊆ tool.fields := by cases tool <;> decide
  rw [← List.mem_flatMap]
  exact ⟨fun h => hfields h, fun h => hchecks h⟩

theorem field_mem_fields {c : Check} (h : c ∈ tool.checks) : c.field ∈ tool.fields :=
  (mem_fields_iff tool c.field).2 ⟨c, h, c.field_mem⟩

end Tool

theorem ArithmeticRequest.performs (args : Arguments) :
    Performs args Tool.arithmetic.checks (ofArguments args) :=
  .required fun _ _ => .required fun _ _ => .required fun _ _ => .orDefault fun _ _ => .done _

theorem AdvancedMathRequest.performs_check {r : AdvancedMathRequest}
    (hoperation : required Shape.choice args "operation" = .ok r.operation)
    (hexponent : optional Shape.float args "exponent" = .ok r.exponent)
    (hdecimals : optional Shape.uint32 args "decimals" = .ok r.decimals) :
    Performs args [.neededForPower, .decimalsInRange] (check r) := by
  have hpower : Check.neededForPower.fault? args =
      if r.operation = .power ∧ r.exponent.isNone then some .neededForPower else none := by
    simp [Check.neededForPower, Check.satisfied, hoperation, hexponent,
      bind, Except.bind, pure, Except.pure]
  have hrange : Check.decimalsInRange.fault? args =
      if r.decimals.any fun d => maxDecimals < d.toNat then some .decimalsInRange else none := by
    simp only [Check.decimalsInRange, Check.satisfied, hdecimals]
  simp only [Performs, firstFailure?, List.findSome?_cons, List.findSome?_nil,
    Check.failure?, hpower, hrange, check]
  split
  · rfl
  · split <;> rfl

theorem AdvancedMathRequest.performs (args : Arguments) :
    Performs args Tool.advancedMath.checks (ofArguments args) :=
  .required fun _ hoperation => .required fun _ _ => .optional fun _ hexponent =>
    .optional fun _ hdecimals =>
    .orDefault fun _ _ => .map _ (performs_check hoperation hexponent hdecimals)

theorem TrigonometryRequest.performs (args : Arguments) :
    Performs args Tool.trigonometry.checks (ofArguments args) :=
  .required fun _ _ => .required fun _ _ => .orDefault fun _ _ => .orDefault fun _ _ => .done _

theorem StatisticsRequest.performs (args : Arguments) :
    Performs args Tool.statistics.checks (ofArguments args) :=
  .required fun _ _ => .required fun _ _ => .orDefault fun _ _ => .done _

theorem ConversionRequest.performs (args : Arguments) :
    Performs args Tool.conversion.checks (ofArguments args) :=
  .required fun _ _ => .required fun _ _ => .required fun _ _ => .required fun _ _ =>
    .orDefault fun _ _ => .done _

theorem HashRequest.performs (args : Arguments) :
    Performs args Tool.hash.checks (ofArguments args) :=
  .required fun _ _ => .required fun _ _ => .required fun _ _ => .orDefault fun _ _ =>
    .orDefault fun _ _ => .done _

theorem eq_of_expectedHash_error {given : String} (h : expectedHash given = .error failure) :
    failure = .validation "expected_hash" .hexDigest := by
  unfold expectedHash at h
  dsimp only at h
  split at h
  · exact (Except.error.inj h).symm
  · cases h

theorem failure?_expectedHash {given : String}
    (h : required Shape.string args "expected_hash" = .ok given) :
    failure? (expectedHash given) = Check.hexDigest.failure? args := by
  simp only [Check.failure?, Check.hexDigest, Check.satisfied, h]
  exact failure?_of_only fun _ => eq_of_expectedHash_error

theorem ComparisonRequest.performs (args : Arguments) :
    Performs args Tool.comparison.checks (ofArguments args) :=
  .required fun _ hgiven => .required fun _ _ => .required fun _ _ => .required fun _ _ =>
    .step (failure?_expectedHash hgiven) fun _ _ => .orDefault fun _ _ =>
      .orDefault fun _ _ => .done _

theorem BatchRequest.performs (args : Arguments) :
    Performs args Tool.batchHash.checks (ofArguments args) :=
  .required fun _ _ => .required fun _ _ => .required fun _ _ => .orDefault fun _ _ =>
    .orDefault fun _ _ => .done _

inductive ToolRequest where
  | arithmetic (r : ArithmeticRequest)
  | advancedMath (r : AdvancedMathRequest)
  | trigonometry (r : TrigonometryRequest)
  | statistics (r : StatisticsRequest)
  | conversion (r : ConversionRequest)
  | hash (r : HashRequest)
  | comparison (r : ComparisonRequest)
  | batchHash (r : BatchRequest)

def ToolRequest.answer (settings : Settings) (tree : FileTree) : ToolRequest →
    Outcome (ResponseFormat × Report)
  | .arithmetic r => Prod.mk r.format <$> r.report
  | .advancedMath r => Prod.mk r.format <$> r.report
  | .trigonometry r => Prod.mk r.format <$> r.report
  | .statistics r => Prod.mk r.format <$> r.report
  | .conversion r => Prod.mk r.format <$> r.report
  | .hash r => Prod.mk r.format <$> r.report settings tree
  | .comparison r => Prod.mk r.hash.format <$> r.report settings tree
  | .batchHash r => Prod.mk r.format <$> r.report settings tree

theorem ToolResult.ofFailure_validation (field : String) (constraint : Constraint) :
    ofFailure (.validation field constraint) =
      ⟨s!"Error: Invalid '{field}': {constraint.message}", true, none⟩ := by
  have hmark : "Error: Invalid '" = "Error: " ++ "Invalid '" := rfl
  have htext : "Error: " ++ ("Invalid '" ++ field ++ "': " ++ constraint.message) =
      "Error: Invalid '" ++ field ++ "': " ++ constraint.message := by
    rw [hmark]
    simp only [String.append_assoc]
  exact congrArg (fun text => (⟨text, true, none⟩ : ToolResult)) htext

namespace Tool

def extract : Tool → Arguments → Outcome ToolRequest
  | .arithmetic, args => .arithmetic <$> ArithmeticRequest.ofArguments args
  | .advancedMath, args => .advancedMath <$> AdvancedMathRequest.ofArguments args
  | .trigonometry, args => .trigonometry <$> TrigonometryRequest.ofArguments args
  | .statistics, args => .statistics <$> StatisticsRequest.ofArguments args
  | .conversion, args => .conversion <$> ConversionRequest.ofArguments args
  | .hash, args => .hash <$> HashRequest.ofArguments args
  | .comparison, args => .comparison <$> ComparisonRequest.ofArguments args
  | .batchHash, args => .batchHash <$> BatchRequest.ofArguments args

theorem answer_eq (settings : Settings) (tree : FileTree) (tool : Tool) (args : Arguments) :
    tool.answer settings tree args = tool.extract args >>= ToolRequest.answer settings tree := by
  cases tool <;> simp only [answer, extract, ToolRequest.answer, bind_map_left, bind_pure_comp]

theorem performs_extract (tool : Tool) (args : Arguments) :
    Performs args tool.checks (tool.extract args) := by
  cases tool with
  | arithmetic => exact (ArithmeticRequest.performs args).map _
  | advancedMath => exact (AdvancedMathRequest.performs args).map _
  | trigonometry => exact (TrigonometryRequest.performs args).map _
  | statistics => exact (StatisticsRequest.performs args).map _
  | conversion => exact (ConversionRequest.performs args).map _
  | hash => exact (HashRequest.performs args).map _
  | comparison => exact (ComparisonRequest.performs args).map _
  | batchHash => exact (BatchRequest.performs args).map _

theorem extract_congr (h : AgreeOn tool.fields args args') :
    tool.extract args' = tool.extract args := by
  cases tool with
  | arithmetic =>
    simp [extract, ArithmeticRequest.ofArguments, h.required, h.orDefault,
      fields, parameters, formatParameter]
  | advancedMath =>
    simp [extract, AdvancedMathRequest.ofArguments, h.required, h.optional,
      h.orDefault, fields, parameters, formatParameter]
  | trigonometry =>
    simp [extract, TrigonometryRequest.ofArguments, h.required, h.orDefault,
      fields, parameters, formatParameter]
  | statistics =>
    simp [extract, StatisticsRequest.ofArguments, h.required, h.orDefault,
      fields, parameters, formatParameter]
  | conversion =>
    simp [extract, ConversionRequest.ofArguments, h.required, h.orDefault,
      fields, parameters, formatParameter]
  | hash =>
    simp [extract, HashRequest.ofArguments, h.required, h.orDefault,
      fields, parameters, hashParameters, normalizationParameter, formatParameter]
  | comparison =>
    simp [extract, ComparisonRequest.ofArguments, h.required, h.orDefault,
      fields, parameters, hashParameters, normalizationParameter, formatParameter]
  | batchHash =>
    simp [extract, BatchRequest.ofArguments, h.required, h.orDefault,
      fields, parameters, normalizationParameter, formatParameter]

theorem run_congr (h : AgreeOn tool.fields args args') :
    tool.run settings tree args' = tool.run settings tree args := by
  rw [run_eq, run_eq, answer_eq, answer_eq, extract_congr h]

theorem run_of_extract_error (h : tool.extract args = .error failure) :
    tool.run settings tree args = .ofFailure failure := by
  rw [run_eq, answer_eq, h]
  rfl

/-- Members that are null or stand in no field of the tool change nothing in the result of a call. A
tool reads its arguments unless a check finds a fault, and the first that does is told by the name
of its field, whatever stands in the fields that only later checks examine. -/
theorem call_reads_fields (hkeys : (args.map (·.1)).Nodup) (settings : Settings)
    (tree : FileTree) (tool : Tool) :
    call settings tree tool.name (.object (args.relevant tool.fields)) =
      call settings tree tool.name (.object args) ∧
    (∀ failure, tool.extract args = .error failure ↔
      ∃ earlier c constraint, FirstFault tool.checks args earlier c constraint ∧
        failure = .validation c.field constraint) ∧
    ∀ earlier c constraint, FirstFault tool.checks args earlier c constraint →
      c.field ∈ tool.fields ∧
      ∀ args', (∀ d ∈ earlier ++ [c], AgreeOn d.examines args args') →
        call settings tree tool.name (.object args') =
          .ok ⟨s!"Error: Invalid '{c.field}': {constraint.message}", true, none⟩ := by
  refine ⟨?_, fun failure => (performs_extract tool args).eq_error_iff,
    fun earlier c constraint hfault => ?_⟩
  · rw [call_name, call_name, runValue_object, runValue_object]
    exact congrArg Except.ok (run_congr (Arguments.agreeOn_relevant hkeys))
  · refine ⟨field_mem_fields hfault.mem, fun args' hagree => ?_⟩
    have herror : tool.extract args' = .error (.validation c.field constraint) :=
      (performs_extract tool args').eq_error_iff.2 ⟨earlier, c, constraint,
        hfault.congr hagree, rfl⟩
    rw [call_name, runValue_object, run_of_extract_error herror, ToolResult.ofFailure_validation]

def numberInput : Arguments := [
  ("algorithm", .string "crc32"),
  ("expected_hash", .string "none"),
  ("input_data", .whole ⟨7, by decide, by decide⟩),
  ("input_type", .string "text"),
  ("normalization", .null),
  ("note", .string "nightly")]

theorem call_reads_fields_numberInput :
    (numberInput.map (·.1)).Nodup ∧
      call .default .empty Tool.comparison.name (.object (numberInput.take 4)) =
        call .default .empty Tool.comparison.name (.object numberInput) ∧
      call .default .empty Tool.comparison.name
        (.object (("response_format", .bool true) :: numberInput)) =
        .ok ⟨"Error: Invalid 'input_data': invalid type: integer `7`, expected a string",
          true, none⟩ := by
  have hkeys : (numberInput.map (·.1)).Nodup := by decide
  obtain ⟨hrelevant, -, hfaults⟩ := call_reads_fields hkeys .default .empty .comparison
  have hpassed : ∀ d ∈ Tool.comparison.checks.take 3, d.fault? numberInput = none := by
    simp only [checks, List.take_succ_cons, List.take_zero, List.forall_mem_cons]
    exact ⟨rfl, rfl, rfl, List.forall_mem_nil _⟩
  have hfault : FirstFault Tool.comparison.checks numberInput (Tool.comparison.checks.take 3)
      (.required Shape.string "input_data") (.mismatch (.kind (.whole 7) "a string")) :=
    ⟨⟨_, rfl⟩, hpassed, rfl⟩
  have hunread : ∀ d ∈ Tool.comparison.checks.take 4, "response_format" ∉ d.examines := by decide
  obtain ⟨-, hcalls⟩ := hfaults _ _ _ hfault
  exact ⟨hkeys, hrelevant, hcalls _ fun d hd => Arguments.agreeOn_cons (hunread d hd)⟩

end Tool

end Calculator
