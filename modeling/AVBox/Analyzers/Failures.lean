import AVBox.Analyzers.Runs

/-!
# Hostile input

What `ContainerAnalyzer.process` does with the exceptions of its decoders.  Three calls have a
`try` statement of their own; every other exception travels to the only other clause, at the top
of the recursion, which names four classes.  A run survives its input exactly when each exception
that some decoder raised is named by the clause it meets.
-/

namespace AVBox

open Program

namespace ContainerAnalyzer

variable {ω : Type}

/-- The promise of `process` for hostile input: it returns, the derived directory is gone, and
where a decoder has raised, the job is partial and has an error more. -/
def SurvivesInput (env : ExtractEnv) (scans : Scans ω) (source : Bytes) (s : ExtractState ω) :
    Prop :=
  Returns (process env scans source) s ∧
    (final (process env scans source) s).derivedRoot = false ∧
    ((final (process env scans source) s).trace.failures ≠ [] →
      Reported s (final (process env scans source) s))

/-- An exception of one of the four classes, wherever it is raised, or of the class that only one
parser raises. -/
def Caught (failure : DecodeSite × Exc) : Prop :=
  failure.2.family ∈ [.osError, .tarError, .badZipFile, .eofError] ∨
    failure.1 = .document ∧ failure.2.family = .documentError ∨
    failure.1 = .partitionTable ∧ failure.2.family = .partitionTableError ∨
    failure.1 = .diskImage ∧ failure.2.family = .diskImageError

instance (failure : DecodeSite × Exc) : Decidable (Caught failure) :=
  inferInstanceAs (Decidable (_ ∨ _))

/-- These are the exceptions that some clause names on their way to the caller of `process`. -/
lemma caught_iff (failure : DecodeSite × Exc) :
    Caught failure ↔ Guarded failure ∨ failure.2.family ∈ processGuards := by
  obtain ⟨site, exc⟩ := failure
  unfold Caught Guarded processGuards
  cases site with
  | document =>
      simp only [DecodeSite.guards, List.mem_cons, List.not_mem_nil, or_false, true_and,
        reduceCtorEq, false_and]
      tauto
  | partitionTable | diskImage =>
      simp only [DecodeSite.guards, List.mem_cons, List.not_mem_nil, or_false, false_or, true_and,
        reduceCtorEq, false_and]
      tauto
  | _ => simp [DecodeSite.guards]

variable {env : ExtractEnv} {scans : Scans ω} {source : Bytes} {s t : ExtractState ω} {exc : Exc}

/-- A body that returns has only met exceptions that their own clauses name. -/
lemma completed_failures (h : Completed env scans (begin source s) t) :
    (∀ failure ∈ t.trace.failures, Guarded failure) ∧ (t.trace.failures ≠ [] → Reported s t) := by
  obtain ⟨caught, hcaught, hguarded, hreported⟩ := h.failures
  have heq : t.trace.failures = caught := by simpa [begin] using hcaught
  rw [heq]
  exact ⟨hguarded, hreported⟩

/-- A body that raises has met one more exception, the one it raises. -/
lemma escaped_failures (h : Escaped env scans exc (begin source s) t) :
    ∃ caught site, t.trace.failures = caught ++ [(site, exc)] ∧
      (∀ failure ∈ caught, Guarded failure) ∧ ¬Guarded (site, exc) := by
  obtain ⟨caught, site, hcaught, hguarded, hsite⟩ := h.failures
  exact ⟨caught, site, by simpa [begin] using hcaught, hguarded, hsite⟩

/-- `process` survives its input exactly when every exception that reaches a clause is named by
it. -/
theorem survives_input_iff (env : ExtractEnv) (scans : Scans ω) (source : Bytes)
    (s : ExtractState ω) :
    SurvivesInput env scans source s ↔
      ∀ failure ∈ (final (process env scans source) s).trace.failures, Caught failure := by
  have hruns := @processBody_runs _ env scans source (begin source s)
  cases hbody : processBody env scans source (begin source s) with
  | ok a t =>
      rw [hbody] at hruns
      obtain ⟨hguarded, hreported⟩ := completed_failures hruns
      have hprocess := process_of_ok hbody
      unfold SurvivesInput
      rw [final_of_ok hprocess]
      exact ⟨fun _ failure hmem => (caught_iff _).2 (.inl (hguarded failure hmem)),
        fun _ => ⟨returns_of_ok hprocess, rfl, hreported⟩⟩
  | error exc t =>
      rw [hbody] at hruns
      obtain ⟨caught, site, hfailures, hguarded, hsite⟩ := escaped_failures hruns
      have hprocess := process_of_error hbody
      by_cases hguard : exc.family ∈ processGuards
      · rw [if_pos hguard] at hprocess
        unfold SurvivesInput
        rw [final_of_ok hprocess]
        refine ⟨fun _ failure hmem => ?_, fun _ => ⟨returns_of_ok hprocess, rfl, fun _ => ?_⟩⟩
        · change failure ∈ t.trace.failures at hmem
          rw [hfailures] at hmem
          rcases List.mem_append.1 hmem with hmem | hmem
          · exact (caught_iff _).2 (.inl (hguarded failure hmem))
          · obtain rfl := List.mem_singleton.1 hmem
            exact (caught_iff _).2 (.inr hguard)
        · have hreported : Reported (begin source s) (excepted exc t) :=
            (excepted_reported exc t).mono hruns.steps.grows (.refl _)
          exact hreported
      · rw [if_neg hguard] at hprocess
        unfold SurvivesInput
        rw [final_of_error hprocess]
        refine ⟨fun h => ?_, fun h => ?_⟩
        · exact absurd h.1 (not_returns_iff.2 ⟨exc, _, hprocess⟩)
        · have hcaught : Caught (site, exc) := h (site, exc) (by
            change (site, exc) ∈ t.trace.failures
            rw [hfailures]
            simp)
          exact absurd ((caught_iff _).1 hcaught) (not_or.2 ⟨hsite, hguard⟩)

/-! ### A damaged gzip stream -/

/-- A gzip header, then a deflate block of the reserved type. -/
def damagedGzip : Bytes := [0x1F, 0x8B, 0x08, 0, 0, 0, 0, 0, 0, 0x03, 0x07]

/-- Decoders for that file: reading the stream raises `zlib.error`. -/
def damagedGzipEnv : ExtractEnv :=
  { ExtractEnv.plain with
    openCompressed := fun _ _ => .ok
      { chunks := []
        fault := some
          { family := .zlibError
            name := "error"
            text := "Error -3 while decompressing data: invalid block type" } } }

/-- `zlib.error` is none of the four classes: it leaves `process`. -/
theorem damaged_gzip_escapes :
    ¬SurvivesInput damagedGzipEnv .silent damagedGzip (.fresh (containerJob damagedGzip) ()) := by
  rintro ⟨hreturns, -⟩
  have hraised : raised (process damagedGzipEnv .silent damagedGzip)
      (.fresh (containerJob damagedGzip) ()) ≠ none := by decide +kernel
  exact hraised hreturns

end ContainerAnalyzer

end AVBox
