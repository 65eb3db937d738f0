import AVBox.Analyzers.Containers
import AVBox.Correlation.Service

/-!
# The assembled service

`build_context` of `runtime/context.py` attaches the container analyzer and the correlation
service to the scan service, and the container analyzer sends each child through the scan service
again.  `serviceStages n` ties that knot `n` levels deep.  One level is all that a job uses: what
a child is asked for never includes the container analyzer.
-/

namespace AVBox

open Program

namespace ScanService

/-- The scan service as the container analyzer sees it. -/
def scansOf (env : ScanEnv) (stages : Stages) : Scans Host where
  createQueued := createQueued env
  executeQueued := executeQueued env stages

/-- What an extraction leaves behind: `job.extraction_usage` is the record it has counted in. -/
def leaveExtraction (t : ExtractState Host) : ScanState :=
  ⟨{ t.job with extractionUsage := some t.usage }, t.scans⟩

/-- `ContainerAnalyzer.process` as the recursive analyzer of the scan service. -/
def containerStage (xenv : ExtractEnv) (scans : Scans Host) (source : Bytes) :
    EStateM Exc ScanState Unit := fun s =>
  match ContainerAnalyzer.process xenv scans source (.fresh s.job s.host) with
  | .ok _ t => .ok () (leaveExtraction t)
  | .error exc t => .error exc (leaveExtraction t)

lemma final_containerStage (xenv : ExtractEnv) (scans : Scans Host) (source : Bytes)
    (s : ScanState) : final (containerStage xenv scans source) s =
      leaveExtraction (final (ContainerAnalyzer.process xenv scans source)
        (.fresh s.job s.host)) := by
  simp only [final, containerStage]
  cases ContainerAnalyzer.process xenv scans source (.fresh s.job s.host) <;> rfl

/-- The late stages of the service, nested to a depth. -/
def serviceStages (env : ScanEnv) (xenv : ExtractEnv) (cenv : CorrelationService.CorrelationEnv) :
    ℕ → Stages
  | 0 =>
      { recursiveAnalyzer := none
        correlationService := some (CorrelationService.process cenv) }
  | depth + 1 =>
      { recursiveAnalyzer :=
          some (containerStage xenv (scansOf env (serviceStages env xenv cenv depth)))
        correlationService := some (CorrelationService.process cenv) }

end ScanService

end AVBox
