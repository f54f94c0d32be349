import Mathlib.Data.List.Basic

/-! # The transcript in an instruction

`truncateTranscript` of `discussion-evidence-service.ts`. A text is the sequence of its code
points, lone surrogates included: whatever is put together here has a line feed between its
parts, so no two of them become one. -/

namespace ConveneWire.Discussion

abbrev CodePoints := List Nat

/-- The loop of `exceedsUnicodeCodePointLimit`. -/
def exceedsFrom (maximum length : Int) : CodePoints → Bool
  | [] => false
  | _ :: rest => if maximum < length + 1 then true else exceedsFrom maximum (length + 1) rest

def exceedsUnicodeCodePointLimit (value : CodePoints) (maximum : Int) : Bool :=
  exceedsFrom maximum 0 value

/-- The loop of `truncateUnicodeCodePoints`. -/
def truncateFrom (maximum length : Int) : CodePoints → CodePoints
  | [] => []
  | codePoint :: rest =>
    if length = maximum then [] else codePoint :: truncateFrom maximum (length + 1) rest

def truncateUnicodeCodePoints (value : CodePoints) (maximum : Int) : CodePoints :=
  truncateFrom maximum 0 value

/-- `truncationMarker.trimStart()`. -/
def transcriptMarker : CodePoints :=
  "[... truncated to preserve required instruction sections ...]".toList.map Char.toNat

def joinLines (lines : List CodePoints) : CodePoints := [10].intercalate lines

/-- The loop over the lines, from the last one on. -/
def selectLines : List CodePoints → List CodePoints → Int → List CodePoints
  | [], selected, _ => selected
  | line :: before, selected, remaining =>
    let separatorLength : Int := if selected.length = 0 then 0 else 1
    if line.length + separatorLength ≤ remaining then
      selectLines before (line :: selected) (remaining - (line.length + separatorLength))
    else if selected.length = 0 then [truncateUnicodeCodePoints line remaining]
    else selected

def truncateTranscript (lines : List CodePoints) (maximum : Int) : CodePoints :=
  if maximum ≤ 0 then []
  else if !exceedsUnicodeCodePointLimit (joinLines lines) maximum then joinLines lines
  else if maximum ≤ transcriptMarker.length then
    truncateUnicodeCodePoints transcriptMarker maximum
  else
    let selected := selectLines lines.reverse [] (maximum - transcriptMarker.length - 1)
    if selected.length = 0 then transcriptMarker
    else transcriptMarker ++ 10 :: joinLines selected

variable {value line : CodePoints} {lines before selected : List CodePoints}
  {maximum length remaining : Int}

/-! ## The loops over code points -/

theorem exceedsFrom_eq_false (h : exceedsFrom maximum length value = false)
    (hlength : length ≤ maximum) : length + value.length ≤ maximum := by
  induction value generalizing length with
  | nil => simpa using hlength
  | cons codePoint rest ih =>
    rw [exceedsFrom] at h
    split at h
    · cases h
    · have hrest := ih h (by omega)
      simp only [List.length_cons]
      omega

theorem truncateFrom_eq_take (h : length ≤ maximum) :
    truncateFrom maximum length value = value.take (maximum - length).toNat := by
  induction value generalizing length with
  | nil => simp [truncateFrom]
  | cons codePoint rest ih =>
    rw [truncateFrom]
    split
    · simp [*]
    · have hsucc : (maximum - length).toNat = (maximum - (length + 1)).toNat + 1 := by omega
      rw [ih (by omega), hsucc, List.take_succ_cons]

/-! ## The loop over lines -/

theorem length_joinLines_cons : ((joinLines (line :: selected)).length : Int) =
    line.length + (if selected.length = 0 then 0 else 1) + (joinLines selected).length := by
  cases selected with
  | nil => simp [joinLines]
  | cons next rest =>
    simp [joinLines, List.intercalate]
    omega

/-- What the loop selects: lines from the end, or a part of the last line alone. -/
theorem selectLines_spec (hremaining : 0 ≤ remaining) :
    (joinLines (selectLines before selected remaining)).length ≤
        (joinLines selected).length + remaining ∧
      (selectLines before selected remaining = [] → before = [] ∧ selected = []) ∧
      (selectLines before selected remaining <:+ before.reverse ++ selected ∨
        ∃ line rest, before = line :: rest ∧ selected = [] ∧ remaining < line.length ∧
          selectLines before selected remaining = [line.take remaining.toNat]) := by
  induction before generalizing selected remaining with
  | nil =>
    rw [selectLines]
    exact ⟨by omega, fun h => ⟨rfl, h⟩, .inl (List.suffix_refl _)⟩
  | cons line before ih =>
    rw [selectLines]
    by_cases hfits : (line.length : Int) + (if selected.length = 0 then 0 else 1) ≤ remaining
    · rw [if_pos hfits]
      obtain ⟨hlength, hnone, htail⟩ := @ih (line :: selected) _ (Int.sub_nonneg.mpr hfits)
      rw [length_joinLines_cons] at hlength
      refine ⟨by omega, fun h => (nomatch (hnone h).2), .inl ?_⟩
      rcases htail with hsuffix | ⟨-, -, -, hnil, -⟩
      · simpa using hsuffix
      · cases hnil
    rw [if_neg hfits]
    split
    · rename_i hfirst
      obtain rfl := List.length_eq_zero_iff.mp hfirst
      simp only [List.length_nil, reduceIte, Int.add_zero, Int.not_le] at hfits
      rw [truncateUnicodeCodePoints, truncateFrom_eq_take hremaining, Int.sub_zero]
      refine ⟨?_, nofun, .inr ⟨line, before, rfl, rfl, hfits, rfl⟩⟩
      simp [joinLines]
      omega
    · rename_i hfirst
      exact ⟨by omega, fun h => absurd (List.length_eq_zero_iff.mpr h) hfirst,
        .inl (List.suffix_append _ _)⟩

/-- The transcript is whole, or it is the marker and the last lines, or the marker and
the beginning of a last line that is too long by itself. -/
theorem truncateTranscript_keeps_tail (lines : List CodePoints) (maximum : Int)
    (hmaximum : transcriptMarker.length < maximum) :
    (truncateTranscript lines maximum).length ≤ maximum ∧
      (truncateTranscript lines maximum = joinLines lines ∨
        (∃ kept, kept <:+ lines ∧ kept ≠ [] ∧
          truncateTranscript lines maximum = transcriptMarker ++ 10 :: joinLines kept) ∨
        ∃ line, lines.getLast? = some line ∧ maximum < transcriptMarker.length + 1 + line.length ∧
          truncateTranscript lines maximum = transcriptMarker ++
            10 :: line.take (maximum - transcriptMarker.length - 1).toNat) := by
  unfold truncateTranscript
  generalize transcriptMarker = marker at hmaximum ⊢
  rw [if_neg (by omega)]
  split
  · rename_i hfits
    have hlength : 0 + ((joinLines lines).length : Int) ≤ maximum :=
      exceedsFrom_eq_false (by simpa [exceedsUnicodeCodePointLimit] using hfits) (by omega)
    exact ⟨by omega, .inl rfl⟩
  rename_i hexceeds
  rw [if_neg (by omega)]
  have hremaining : 0 ≤ maximum - marker.length - 1 := by omega
  obtain ⟨hlength, hnone, htail⟩ := @selectLines_spec lines.reverse [] _ hremaining
  generalize selectLines lines.reverse [] _ = kept at hlength hnone htail ⊢
  have hkept : kept ≠ [] := by
    rintro rfl
    obtain rfl := List.reverse_eq_nil_iff.mp (hnone rfl).1
    exact hexceeds rfl
  dsimp only
  rw [if_neg (fun h => hkept (List.length_eq_zero_iff.mp h))]
  refine ⟨?_, .inr ?_⟩
  · simp only [joinLines, List.intercalate_nil, List.length_nil] at hlength
    simp only [joinLines, List.length_append, List.length_cons]
    omega
  rcases htail with hsuffix | ⟨line, rest, hlines, -, hlong, rfl⟩
  · exact .inl ⟨kept, by simpa using hsuffix, hkept, rfl⟩
  · have hlast : lines.getLast? = some line := by
      rw [← List.head?_reverse, hlines, List.head?_cons]
    exact .inr ⟨line, hlast, by omega, by simp [joinLines]⟩

theorem length_transcriptMarker : transcriptMarker.length = 61 := rfl

theorem truncateTranscript_keeps_tail_sample :
    (transcriptMarker.length : Int) < 62 ∧
      ((truncateTranscript [List.replicate 60 0, [1, 2]] 62).length : Int) ≤ 62 := by
  have hmarker : (transcriptMarker.length : Int) < 62 := by
    rw [length_transcriptMarker]
    omega
  exact ⟨hmarker, (truncateTranscript_keeps_tail _ _ hmarker).1⟩

end ConveneWire.Discussion
