import AVBox.Analyzers.Strings

/-!
# Where extracted strings stand in the file

The analyzer run on characters that know their places (`places`) returns the same values.  A value
is the decoding of the range of the file that it spans exactly when the decoder dropped nothing
there: a run in a lenient decoding goes on across what does not decode.
-/

namespace AVBox

open Binary

namespace StringsAnalyzer

variable {self : StringsAnalyzer} {data : Bytes}

/-- Characters of a view, with their places in it. -/
abbrev Place := View × List (Decoder.Glyph (Fin 0x110000))

/-- The encoding and the text that are reported for a place. -/
def Place.item (place : Place) : Encoding × PyStr :=
  (place.1.encoding, place.2.map Decoder.Glyph.char)

/-- `found`, with places. -/
def foundPlaces (data : Bytes) : List Place :=
  (views data).flatMap fun view =>
    (Runs.runs (isPrintable ∘ Decoder.Glyph.char) 2 (view.encoding.decoder.glyphs view.bytes)).map
      fun run => (view, run)

/-- The places of the values that are returned for a source. -/
def places (self : StringsAnalyzer) (content : Bytes) : List Place :=
  (self.collect (self.exceeds content) (foundPlaces (self.scanned content))).values

/-- The value is the decoding of the range it spans. -/
def InFile (data : Bytes) (place : Place) : Prop :=
  place.1.encoding.decoder.strict (slice data (place.1.offset + Decoder.begins place.2)
    (place.1.offset + Decoder.ends place.2)) = some place.item.2

/-- The decoder dropped nothing between the first character and the last one. -/
def NothingDropped (place : Place) : Prop :=
  ∀ gap ∈ place.1.encoding.decoder.gaps place.1.bytes,
    ¬(Decoder.begins place.2 < gap ∧ gap < Decoder.ends place.2)

instance (data : Bytes) (place : Place) : Decidable (InFile data place) :=
  inferInstanceAs (Decidable (_ = _))

lemma found_eq_map (data : Bytes) : found data = (foundPlaces data).map Place.item := by
  simp only [found, foundPlaces, decodedViews, List.flatMap_map, List.map_flatMap, List.map_map]
  congr 1
  funext view
  rw [View.text, ← Decoder.map_glyphs, Runs.runs_map, List.map_map]
  rfl

/-- The values that are returned are the texts of the places. -/
theorem values_eq_map (content : Bytes) :
    (self.collect (self.exceeds content) (found (self.scanned content))).values =
      (places self content).map Place.item := by
  rw [found_eq_map]
  exact congrArg Collected.values (collect_map View.encoding Decoder.Glyph.char _ _)

/-- The glyphs of a place are consecutive in its view. -/
lemma exists_split_of_mem_places {content : Bytes} {place : Place}
    (h : place ∈ places self content) :
    place.1 ∈ views (self.scanned content) ∧
      (∀ glyph ∈ place.2, isPrintable glyph.char = true) ∧ ∃ before after,
        place.1.encoding.decoder.glyphs place.1.bytes = before ++ place.2 ++ after := by
  obtain ⟨front, item, back, hsplit, -, rfl⟩ := mem_collect_iff.1 h
  have hitem : item ∈ foundPlaces (self.scanned content) := by
    rw [hsplit]
    simp
  simp only [foundPlaces, List.mem_flatMap, List.mem_map] at hitem
  obtain ⟨view, hview, run, hrun, rfl⟩ := hitem
  obtain ⟨-, before, after, hglyphs, hmaximal⟩ := Runs.mem_runs_iff.1 hrun
  have hcut : ∃ tail, run = self.cut run ++ tail := by
    rw [cut]
    split_ifs
    · exact ⟨_, (List.take_append_drop _ _).symm⟩
    · exact ⟨[], (List.append_nil _).symm⟩
  obtain ⟨tail, htail⟩ := hcut
  refine ⟨hview, fun glyph hglyph => hmaximal.inside glyph ?_, before, tail ++ after, ?_⟩
  · rw [htail]
    exact List.mem_append_left _ hglyph
  · rw [hglyphs]
    conv_lhs => rw [htail]
    simp only [List.append_assoc]

lemma strict_ascii_cons {byte : UInt8} {bytes : Bytes} {text : PyStr} :
    asciiCodec.strict (byte :: bytes) = some text ↔ byte.toNat < 0x80 ∧
      ∃ rest, asciiCodec.strict bytes = some rest ∧
        text = Fin.ofNat 0x110000 byte.toNat :: rest := by
  by_cases hbyte : byte.toNat < 0x80
  · have hread : asciiCodec.read (byte :: bytes) =
        some (Fin.ofNat 0x110000 byte.toNat, 1) := if_pos hbyte
    rw [Decoder.strict_of_read hread]
    simp [hbyte, eq_comm]
  · have hread : asciiCodec.read (byte :: bytes) = none := if_neg hbyte
    rw [Decoder.strict_of_none (List.cons_ne_nil _ _) hread]
    simp [hbyte]

lemma isPrintable_ofNat {n : ℕ} (h : n < 0x80) :
    isPrintable (Fin.ofNat 0x110000 n) = true ↔ 0x20 ≤ n ∧ n < 0x7F := by
  have hval : (Fin.ofNat 0x110000 n).val = n := Nat.mod_eq_of_lt (by omega)
  rw [isPrintable, hval, decide_eq_true_eq]

/-- Masking bytes that are not printable adds no printable text, and takes none away. -/
lemma strict_masked_iff {bytes : Bytes} {text : PyStr} (htext : ∀ c ∈ text, isPrintable c = true) :
    asciiCodec.strict (bytes.map masked) = some text ↔ asciiCodec.strict bytes = some text := by
  induction bytes generalizing text with
  | nil => exact Iff.rfl
  | cons byte bytes ih =>
      rw [List.map_cons, strict_ascii_cons, strict_ascii_cons]
      by_cases hbyte : 0x20 ≤ byte.toNat ∧ byte.toNat < 0x7F
      · rw [masked, if_pos hbyte]
        refine and_congr_right fun _ => exists_congr fun rest => and_congr_left fun heq => ih ?_
        rw [heq] at htext
        exact fun c hc => htext c (List.mem_cons_of_mem _ hc)
      · -- Neither text can begin with a printable character.
        have hnot {n : ℕ} (hn : n < 0x80) (hrange : ¬(0x20 ≤ n ∧ n < 0x7F)) {rest : PyStr}
            (heq : text = Fin.ofNat 0x110000 n :: rest) : False := by
          rw [heq] at htext
          exact hrange ((isPrintable_ofNat hn).1 (htext _ List.mem_cons_self))
        rw [masked, if_neg hbyte]
        refine iff_of_false ?_ ?_
        · rintro ⟨hn, rest, -, heq⟩
          exact hnot hn (by decide) heq
        · rintro ⟨hn, rest, -, heq⟩
          exact hnot hn hbyte heq

/-- What a view shows of a range is in the data there. -/
lemma strict_view_iff {view : View} (hview : view ∈ views data) {start stop : ℕ}
    (hstop : stop ≤ view.bytes.length) {text : PyStr} (htext : ∀ c ∈ text, isPrintable c = true) :
    view.encoding.decoder.strict (slice view.bytes start stop) = some text ↔
      view.encoding.decoder.strict (slice data (view.offset + start) (view.offset + stop)) =
        some text := by
  have haligned (offset : ℕ) (hstop : stop ≤ (aligned data offset).length) :
      slice (aligned data offset) start stop = slice data (offset + start) (offset + stop) := by
    simp only [aligned, slice, List.length_take] at hstop ⊢
    rw [List.drop_take, List.take_take, List.drop_drop, Nat.min_eq_left (by omega)]
    congr 1
    omega
  simp only [views, List.mem_cons, List.not_mem_nil, or_false] at hview
  rcases hview with rfl | rfl | rfl | rfl | rfl | rfl
  · rw [Nat.zero_add, Nat.zero_add]
    have hmap : slice (data.map masked) start stop = (slice data start stop).map masked := by
      rw [slice, ← List.map_drop, ← List.map_take, slice]
    exact (congrArg (asciiCodec.strict · = some text) hmap).to_iff.trans (strict_masked_iff htext)
  · simp only [Nat.zero_add]
  all_goals
    simp only [haligned _ hstop]

/-- A value is in the file exactly when nothing was dropped inside it. -/
lemma inFile_iff {content : Bytes} {place : Place} (h : place ∈ places self content) :
    InFile (self.scanned content) place ↔ NothingDropped place := by
  obtain ⟨hview, hprintable, before, after, hglyphs⟩ := exists_split_of_mem_places h
  by_cases hrun : place.2 = []
  · obtain ⟨view, run⟩ := place
    obtain rfl : run = [] := hrun
    refine iff_of_true ?_ fun gap _ hgap => Nat.not_lt_zero _ hgap.2
    simp [InFile, Decoder.begins, Decoder.ends, slice, Place.item]
  · have hends : Decoder.ends place.2 ≤ place.1.bytes.length :=
      Decoder.ends_le (d := place.1.encoding.decoder) fun glyph hglyph => by
        rw [hglyphs]
        simp [hglyph]
    rw [InFile, ← strict_view_iff hview hends (by simpa [Place.item] using hprintable)]
    exact Decoder.strict_range_iff hglyphs hrun

/-- The values that are returned are in the file, with their characters side by side, exactly when
nothing was dropped inside any of them. -/
theorem values_in_file_iff (self : StringsAnalyzer) (content : Bytes) :
    (∃ result, self.analyze (.ok content) = .ok result ∧
        result.values = (places self content).map Place.item) ∧
      ((∀ place ∈ places self content, InFile (self.scanned content) place) ↔
        ∀ place ∈ places self content, NothingDropped place) := by
  refine ⟨⟨_, rfl, ?_⟩, forall₂_congr fun place hplace => inFile_iff hplace⟩
  rw [report_values, values_eq_map]

/-! ### A word in two pieces -/

/-- `pass`, a byte that no UTF-8 text has, and `word`. -/
def brokenWord : Bytes :=
  [0x70, 0x61, 0x73, 0x73, 0xFF, 0x77, 0x6F, 0x72, 0x64]

lemma slice_min (bytes : Bytes) (start stop : ℕ) :
    slice bytes start stop = slice bytes (min start bytes.length) (min stop bytes.length) := by
  rcases Nat.le_total bytes.length start with hstart | hstart
  · rw [slice, slice, List.drop_eq_nil_of_le hstart, Nat.min_eq_right hstart, List.drop_length,
      List.take_nil, List.take_nil]
  · rw [Nat.min_eq_left hstart]
    rcases Nat.le_total bytes.length stop with hstop | hstop
    · rw [Nat.min_eq_right hstop, slice, slice, List.take_of_length_le, List.take_of_length_le] <;>
        rw [List.length_drop]
      omega
    · rw [Nat.min_eq_left hstop]

/-- The two pieces are reported as one string, which no range of the file is. -/
theorem broken_word_joined :
    ¬∀ result, (init .default).analyze (.ok brokenWord) = .ok result →
      ∀ item ∈ result.values, ∃ start stop,
        item.1.decoder.strict (slice brokenWord start stop) = some item.2 := by
  intro h
  obtain ⟨start, stop, hstrict⟩ := h _ rfl (.utf8, PyStr.ofString "password") (by decide +kernel)
  rw [slice_min] at hstrict
  have hnone : ∀ start ≤ 9, ∀ stop ≤ 9, utf8Codec.strict (slice brokenWord start stop) ≠
      some (PyStr.ofString "password") := by
    decide +kernel
  exact hnone _ (Nat.min_le_right _ _) _ (Nat.min_le_right _ _) hstrict

end StringsAnalyzer

end AVBox
