import AVBox.Analyzers.Strings
import Mathlib.Data.List.Flatten

/-!
# The bounds of string extraction

The count, the total, the maximum and the truncation flag are as promised, for every source.  The
minimum is not applied: the expression `STRING_RE` takes every printable run of two characters or
more, so that the bounds are honoured exactly when no shorter value than the minimum finds room.
-/

namespace AVBox

namespace StringsAnalyzer

variable {settings : StringSettings} {data : Bytes} {value : Encoding × PyStr}

/-- What the settings and the truncation flag promise of a result. -/
structure BoundsHonoured (settings : StringSettings) (source : Except Exc Bytes)
    (result : StringsResult) : Prop where
  printable : ∀ item ∈ result.values, ∀ c ∈ item.2, isPrintable c = true
  shortest : ∀ item ∈ result.values, settings.stringsMinLength ≤ item.2.length
  longest : ∀ item ∈ result.values, item.2.length ≤ settings.stringsMaxLength
  count : result.values.length ≤ settings.stringsMaxCount
  total : (result.values.map fun item => item.2.length).sum ≤ settings.stringsMaxTotalChars
  /-- Unless the result is said to be truncated, the maximal printable runs of the whole file are
  returned, each as often as it stands in a view. -/
  complete : result.truncated = some false → ∀ content, source = .ok content →
    ∃ pieces : PyStr → List (Runs.Piece (Fin 0x110000)),
      (∀ text, Runs.EachOnce isPrintable settings.stringsMinLength text (pieces text)) ∧
        ((decodedViews content).flatMap fun view =>
          (pieces view.2).map fun piece => (view.1, piece.run)).Sublist result.values

/-- Every value that there is room for is long enough once it has been cut. -/
def ShortLeftOut (settings : StringSettings) (content : Bytes) : Prop :=
  let analyzer := init settings
  ∀ before item after, found (analyzer.scanned content) = before ++ item :: after →
    Room analyzer (analyzer.collect (analyzer.exceeds content) before) item →
      settings.stringsMinLength ≤ (analyzer.cut item.2).length

lemma mem_found_iff :
    value ∈ found data ↔ ∃ view ∈ decodedViews data, value.1 = view.1 ∧ 2 ≤ value.2.length ∧
      ∃ before after, view.2 = before ++ value.2 ++ after ∧
        Runs.Maximal isPrintable before value.2 after := by
  simp only [found, List.mem_flatMap, List.mem_map, Runs.mem_runs_iff]
  constructor
  · rintro ⟨view, hview, run, ⟨hlength, hrun⟩, rfl⟩
    exact ⟨view, hview, rfl, hlength, hrun⟩
  · rintro ⟨view, hview, hencoding, hlength, hrun⟩
    exact ⟨view, hview, value.2, ⟨hlength, hrun⟩, Prod.ext hencoding.symm rfl⟩

/-- The runs of a greater minimal length are found, each as often as it stands in a view. -/
lemma sublist_found (data : Bytes) {n : ℕ} (hn : 2 ≤ n) :
    ∃ pieces : PyStr → List (Runs.Piece (Fin 0x110000)),
      (∀ text, Runs.EachOnce isPrintable n text (pieces text)) ∧
        ((decodedViews data).flatMap fun view =>
          (pieces view.2).map fun piece => (view.1, piece.run)).Sublist (found data) := by
  refine ⟨fun text => (Runs.pieces isPrintable 2 text).filter fun piece => n ≤ piece.run.length,
    fun text => (Runs.pieces_eachOnce text).filter hn, ?_⟩
  refine List.Sublist.flatMap_right _ fun view _ => ?_
  rw [← Runs.map_run_pieces, List.map_map]
  exact List.filter_sublist.map _

lemma mem_of_mem_cut {α : Type} {analyzer : StringsAnalyzer} {text : List α} {c : α}
    (h : c ∈ analyzer.cut text) : c ∈ text := by
  rw [cut] at h
  split_ifs at h
  · exact List.mem_of_mem_take h
  · exact h

/-- What is scanned of a source that does not exceed the limit is all of it. -/
lemma scanned_of_not_exceeds {analyzer : StringsAnalyzer} {content : Bytes}
    (h : analyzer.exceeds content = false) : analyzer.scanned content = content := by
  have hlength := not_lt.1 (of_decide_eq_false h)
  rw [List.length_take] at hlength
  rw [scanned, List.take_take, List.take_of_length_le (by omega)]

lemma analyze_ok (analyzer : StringsAnalyzer) (content : Bytes) :
    analyzer.analyze (.ok content) =
      .ok (report (analyzer.collect (analyzer.exceeds content)
        (found (analyzer.scanned content)))) := rfl

/-- The bounds of a source that can be read. -/
lemma report_honoured_iff (settings : StringSettings) (content : Bytes) :
    BoundsHonoured settings (.ok content) (report ((init settings).collect
        ((init settings).exceeds content) (found ((init settings).scanned content)))) ↔
      ShortLeftOut settings content := by
  set analyzer := init settings with hanalyzer
  set items := found (analyzer.scanned content) with hitems
  constructor
  · intro h before item after hsplit hroom
    refine h.shortest (item.1, analyzer.cut item.2) ?_
    rw [report_values, mem_collect_iff]
    exact ⟨before, item, after, hsplit, hroom, rfl⟩
  · intro h
    have hwithin := @collect_within _ _ analyzer (analyzer.exceeds content) items
    have hvalue {value : Encoding × PyStr} (hmem : value ∈ (report (analyzer.collect
        (analyzer.exceeds content) items)).values) : ∃ before item after,
          items = before ++ item :: after ∧
            Room analyzer (analyzer.collect (analyzer.exceeds content) before) item ∧
              value = (item.1, analyzer.cut item.2) := by
      rwa [report_values, mem_collect_iff] at hmem
    refine ⟨fun value hmem => ?_, fun value hmem => ?_, fun value hmem => ?_, ?_, ?_,
      fun htruncated => ?_⟩
    · obtain ⟨before, item, after, hsplit, -, rfl⟩ := hvalue hmem
      have hitem : item ∈ items := by
        rw [hsplit]
        simp
      obtain ⟨view, -, -, -, front, back, -, hmaximal⟩ := mem_found_iff.1 hitem
      exact fun c hc => hmaximal.inside c (mem_of_mem_cut hc)
    · obtain ⟨before, item, after, hsplit, hroom, rfl⟩ := hvalue hmem
      exact h before item after hsplit hroom
    · rw [report_values] at hmem
      exact hwithin.length value hmem
    · rw [report_values]
      exact hwithin.count
    · rw [report_values]
      exact hwithin.total
    · rintro content' hcontent
      obtain rfl := Except.ok.inj hcontent
      rw [report_truncated] at htruncated
      obtain ⟨hexceeds, hvalues⟩ := collect_complete (Option.some.inj htruncated)
      rw [report_values, hvalues, hitems, scanned_of_not_exceeds hexceeds]
      exact sublist_found content settings.minLength_bounds.1

/-- A source that cannot be read has no values. -/
lemma readError_honoured (settings : StringSettings) (exc other : Exc) :
    BoundsHonoured settings (.error other) (readError exc) := by
  refine ⟨?_, ?_, ?_, Nat.zero_le _, Nat.zero_le _, fun h => by cases h⟩ <;>
    exact fun value h => absurd h List.not_mem_nil

/-- The bounds are honoured exactly when no value shorter than the minimum finds room. -/
theorem bounds_honoured_iff (settings : StringSettings) (source : Except Exc Bytes) :
    (∀ result, (init settings).analyze source = .ok result →
        BoundsHonoured settings source result) ↔
      ∀ content, source = .ok content → ShortLeftOut settings content := by
  cases source with
  | ok content =>
      constructor
      · rintro h content ⟨⟩
        exact (report_honoured_iff settings content).1 (h _ (analyze_ok _ _))
      · rintro h result ⟨⟩
        exact (report_honoured_iff settings content).2 (h content rfl)
  | error exc =>
      refine iff_of_true (fun result hresult => ?_) fun content h => by cases h
      rw [analyze] at hresult
      split_ifs at hresult
      obtain rfl := Except.ok.inj hresult
      exact readError_honoured settings exc exc

/-! ### Two letters -/

def twoLetters : Bytes := [0x61, 0x62]

/-- Two letters are reported as a string, where the minimum is four. -/
theorem two_letters_reported :
    ¬∀ result, (init .default).analyze (.ok twoLetters) = .ok result →
      BoundsHonoured .default (.ok twoLetters) result := by
  intro h
  have hshort := (h _ rfl).shortest (.ascii, PyStr.ofString "ab") (by decide +kernel)
  exact absurd hshort (by decide)

end StringsAnalyzer

end AVBox
