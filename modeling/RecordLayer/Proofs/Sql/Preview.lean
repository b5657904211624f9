import RecordLayer.Proofs.Text.Position
import RecordLayer.Proofs.Text.Words
import RecordLayer.Sql.Preview

/-!
# Previews

A preview shows the words of a statement on one line, or the first 160 characters of that line and
three dots if there are more.  Wherever the line is cut, what is shown is a line again
(`isLine_cut`): the dots close a space at the cut in.  The preview of a preview finds the same
words, and of a line that was cut it cuts the same characters off (`preview_preview`).

The line may also be cut at the position of its 161st character, which is found by counting
characters and used to count bytes (`previewAt`).  It is between two characters, and the preview is
the same (`previewAt_eq`).
-/

namespace RecordLayer.Sql
open Text

/-- The preview, cut at the position of the first character that is left out. -/
def previewAt (sql : String) : Except Slip String :=
  let flat := flattened sql.toList
  match (charPositions 0 flat)[previewLimit]? with
  | none => .ok (.ofList flat)
  | some (cut, _) => do
    let kept ← slice flat 0 cut
    .ok (.ofList (kept ++ ['.', '.', '.']))

/-- A line that is cut, with dots behind it, is a line. -/
theorem isLine_cut {s : List Char} (h : IsLine s) (n : Nat) :
    IsLine (s.take (n + 1) ++ ['.', '.', '.']) where
  space c hc hblank := by
    rcases List.mem_append.1 hc with hc | hc
    · exact h.space c (List.mem_of_mem_take hc) hblank
    · obtain rfl : c = '.' := by simpa using hc
      cases hblank
  head c hc := by
    cases s with
    | nil =>
      obtain rfl : '.' = c := by simpa using hc
      rfl
    | cons d s => exact h.head c hc
  last c hc := by
    obtain rfl : '.' = c := by simpa using hc
    rfl
  single := by
    refine (h.single.take (n + 1)).append (by simp [isBlank]) fun c _ d hd hboth => ?_
    obtain rfl : '.' = d := by simpa using hd
    cases hboth.2

section
variable {s : List Char} {sql : String}

theorem isLine_flattened (s : List Char) : IsLine (flattened s) :=
  isLine_joined (hasWords_words s).isRun

theorem flattened_of_isLine (h : IsLine s) : flattened s = s :=
  joined_words_of_isLine h

theorem toList_preview_of_le (h : (flattened sql.toList).length ≤ previewLimit) :
    (preview sql).toList = flattened sql.toList := by
  rw [preview]
  simp only [if_pos h, String.toList_ofList]

theorem toList_preview_of_lt (h : previewLimit < (flattened sql.toList).length) :
    (preview sql).toList = (flattened sql.toList).take previewLimit ++ ['.', '.', '.'] := by
  rw [preview]
  simp only [if_neg (Nat.not_le.2 h), String.toList_ofList]

theorem isLine_preview (sql : String) : IsLine (preview sql).toList := by
  rcases Nat.lt_or_ge previewLimit (flattened sql.toList).length with h | h
  · rw [toList_preview_of_lt h]
    exact isLine_cut (isLine_flattened _) 159
  · rw [toList_preview_of_le h]
    exact isLine_flattened _

theorem length_cut (h : previewLimit < s.length) :
    (s.take previewLimit ++ ['.', '.', '.']).length = 163 := by
  rw [List.length_append, List.length_take_of_le (Nat.le_of_lt h)]
  rfl

theorem length_preview_le (sql : String) : (preview sql).length ≤ 163 := by
  rw [← String.length_toList]
  rcases Nat.lt_or_ge previewLimit (flattened sql.toList).length with h | h
  · rw [toList_preview_of_lt h, length_cut h]
  · rw [toList_preview_of_le h]
    exact Nat.le_trans h (by decide)

/-- The preview of a preview is the preview. -/
theorem preview_preview (sql : String) : preview (preview sql) = preview sql := by
  have hline := flattened_of_isLine (isLine_preview sql)
  rw [← String.toList_inj]
  rcases Nat.lt_or_ge previewLimit (flattened sql.toList).length with h | h
  · have hpreview := toList_preview_of_lt h
    -- the dots make it too long again, and so they are cut off and put back
    have hlong : previewLimit < (flattened (preview sql).toList).length := by
      rw [hline, hpreview, length_cut h]
      decide
    rw [toList_preview_of_lt hlong, hline, hpreview,
      List.take_left' (List.length_take_of_le (Nat.le_of_lt h))]
  · have hshort : (flattened (preview sql).toList).length ≤ previewLimit := by
      rwa [hline, toList_preview_of_le h]
    rw [toList_preview_of_le hshort, hline]

/-- Cutting by position makes no slip. -/
theorem previewAt_eq (sql : String) : previewAt sql = .ok (preview sql) := by
  rw [previewAt, preview]
  generalize flattened sql.toList = flat
  rcases Nat.lt_or_ge previewLimit flat.length with h | h
  · have hslice := slice_append [] (flat.take previewLimit) (flat.drop previewLimit)
    rw [List.nil_append, List.take_append_drop, size_nil] at hslice
    simp only [getElem?_charPositions, List.getElem?_eq_getElem h, Option.map_some, hslice, ok_bind,
      if_neg (Nat.not_le.2 h)]
  · simp only [getElem?_charPositions, List.getElem?_eq_none h, Option.map_none, if_pos h]

/-- Only the words of a statement are shown. -/
theorem preview_congr {other : String} (h : words other.toList = words sql.toList) :
    preview other = preview sql := by
  rw [preview, flattened, h, preview, flattened]

end

/-- **A preview is a line of bounded length**: the words of the statement with single spaces between
them, or the first 160 characters of that and three dots.  It depends on the words alone, and
showing it again changes nothing.  To cut it by position is no slip, also among characters of
several bytes. -/
theorem preview_exact (sql : String) : ∃ ws, HasWords sql.toList ws ∧
    (∀ ws', HasWords sql.toList ws' → ws' = ws) ∧
    ((joined [' '] ws).length ≤ 160 → (preview sql).toList = joined [' '] ws) ∧
    (160 < (joined [' '] ws).length →
      (preview sql).toList = (joined [' '] ws).take 160 ++ ['.', '.', '.']) ∧
    IsLine (preview sql).toList ∧ (preview sql).length ≤ 163 ∧
    (∀ other : String, HasWords other.toList ws → preview other = preview sql) ∧
    preview (preview sql) = preview sql ∧ previewAt sql = .ok (preview sql) := by
  refine ⟨words sql.toList, hasWords_iff.2 rfl, fun ws' => hasWords_iff.1, toList_preview_of_le,
    toList_preview_of_lt, isLine_preview sql, length_preview_le sql, ?_, preview_preview sql,
    previewAt_eq sql⟩
  intro other hother
  exact preview_congr (hasWords_iff.1 hother).symm

end RecordLayer.Sql
