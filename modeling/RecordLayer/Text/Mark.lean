/-!
# Text — Mark

Cutting a text at a mark: at its first occurrence, at its last one, or at the end of the text
when the mark closes it.
-/

namespace RecordLayer.Text

/-- The text after `mark`, if it begins with it. -/
def afterMark? : List Char → List Char → Option (List Char)
  | [], s => some s
  | _ :: _, [] => none
  | m :: mark, c :: s => if m == c then afterMark? mark s else none

/-- What stands before and after the first occurrence of `mark`. -/
def cutFirst? (mark : List Char) : List Char → Option (List Char × List Char)
  | [] => if mark.isEmpty then some ([], []) else none
  | c :: s =>
    match afterMark? mark (c :: s) with
    | some rest => some ([], rest)
    | none => (cutFirst? mark s).map fun (before, after) => (c :: before, after)

/-- What stands before and after the last occurrence of `mark`. -/
def cutLast? (mark : List Char) : List Char → Option (List Char × List Char)
  | [] => if mark.isEmpty then some ([], []) else none
  | c :: s =>
    match cutLast? mark s with
    | some (before, after) => some (c :: before, after)
    | none => (afterMark? mark (c :: s)).map fun rest => ([], rest)

/-- The text before `mark`, if it ends with it. -/
def beforeMark? (mark s : List Char) : Option (List Char) :=
  (afterMark? mark.reverse s.reverse).map List.reverse

def hasMark (mark s : List Char) : Bool :=
  (cutFirst? mark s).isSome

def beginsWith (mark s : List Char) : Bool :=
  (afterMark? mark s).isSome

theorem afterMark?_eq_some_iff {mark s rest : List Char} :
    afterMark? mark s = some rest ↔ s = mark ++ rest := by
  induction mark generalizing s with
  | nil => simp [afterMark?]
  | cons m mark ih =>
    cases s with
    | nil => simp [afterMark?]
    | cons c s =>
      by_cases h : m = c
      · simp [afterMark?, h, ih]
      · simp [afterMark?, h, Ne.symm h]

theorem eq_append_of_cutFirst? {mark s before after : List Char}
    (h : cutFirst? mark s = some (before, after)) : s = before ++ mark ++ after := by
  induction s generalizing before with
  | nil =>
    cases mark with
    | nil => simp_all [cutFirst?]
    | cons m mark => simp [cutFirst?] at h
  | cons c s ih =>
    rw [cutFirst?] at h
    split at h
    · rename_i rest hr
      obtain ⟨rfl, rfl⟩ := Prod.mk.inj (Option.some.inj h)
      simpa using afterMark?_eq_some_iff.1 hr
    · obtain ⟨⟨b, a⟩, hb, he⟩ := Option.map_eq_some_iff.1 h
      obtain ⟨rfl, rfl⟩ := Prod.mk.inj he
      simp [ih hb]

end RecordLayer.Text
