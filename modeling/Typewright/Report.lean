import Typewright.Generation
import Typewright.Journal
import Typewright.Review

/-!
# Reports

A report is what comes of generating a schema: its units with the warnings about it, or the error
that kept it from having any. The journal has each warning, and then how it went.

- `Generator.report`: the journal and the report of a schema.
-/

namespace Typewright

/-- What came of generating a schema. -/
inductive Report where
  | generated (units : Units String) (warnings : List SchemaWarning) (definitionCount : Nat)
      (space : Json)
  | failed (error : GenerationError)

namespace Report

def failureMessage (e : GenerationError) : String :=
  s!"Code generation failed: {e.message}"

end Report

namespace Generator

def failureRemark (s : Schema) (e : GenerationError) : Remark :=
  ⟨.error, s!"Code generation failed for {s.space}: {e.message}"⟩

def successRemark (g : Generator) (s : Schema) (units : Units String) : Remark :=
  ⟨.info, s!"Generated {units.length} {g.target.language} unit(s) for {s.space}"⟩

/-- The journal and the report of a schema. -/
def report (g : Generator) (s : Schema) : Journal × Except Defect Report :=
  match g.review s with
  | .error d => ([], .error d)
  | .ok warnings =>
    let remarks := warnings.map fun w => (⟨.warning, w.message⟩ : Remark)
    match g.generate s with
    | .error (.defect d) => (remarks, .error d)
    | .error (.error e) => (remarks ++ [failureRemark s e], .ok (.failed e))
    | .ok units =>
      (remarks ++ [g.successRemark s units],
        .ok (.generated units warnings s.walk.length (g.settings.spaceFor s.space)))

end Generator

end Typewright
