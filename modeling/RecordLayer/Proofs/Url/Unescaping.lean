import RecordLayer.Text.Digits
import RecordLayer.Url.Escape

/-!
# URLs — Escapes read back

A percent sign with two hexadecimal digits stands for a byte, any other character for the bytes of
its UTF-8 form (`unescaped`).  Escaping a text leaves those bytes as they are
(`unescaped_escapeWhere`): the percent sign stands for itself, so what looked like an escape before
is one afterwards.  A text is therefore read back exactly if it has no escape in it
(`unescaped_eq_utf8_iff`); a value of a form always is (`formUnescaped_formValue`).
-/

namespace RecordLayer.Url
open Text

/-! ### Bytes -/

/-- The bytes of a text. -/
def utf8 (s : List Char) : List UInt8 :=
  s.flatMap String.utf8EncodeChar

/-- The text that has the bytes, if there is one. -/
def text? (bytes : List UInt8) : Option String :=
  String.fromUTF8? bytes.toByteArray

theorem text?_eq_some_iff {bytes : List UInt8} {s : String} :
    text? bytes = some s ↔ bytes = utf8 s.toList := by
  have hbytes : s.toByteArray = (utf8 s.toList).toByteArray := String.utf8Encode_toList.symm
  have hinj : bytes.toByteArray = (utf8 s.toList).toByteArray ↔ bytes = utf8 s.toList := by
    refine ⟨fun h => ?_, congrArg _⟩
    have hdata := congrArg ByteArray.data h
    rw [List.data_toByteArray, List.data_toByteArray] at hdata
    exact List.toArray_inj hdata
  rw [text?, String.fromUTF8?, ← hinj, ← hbytes]
  split
  · rename_i hvalid
    rw [Option.some.injEq, ← String.toByteArray_inj]
    rfl
  · rename_i hinvalid
    refine ⟨(fun h => by cases h), fun h => absurd ?_ hinvalid⟩
    rw [h]
    exact s.isValidUTF8

theorem utf8_injective {s s' : List Char} (h : utf8 s = utf8 s') : s = s' := by
  have hs : text? (utf8 s) = some (.ofList s) := text?_eq_some_iff.2 (by rw [String.toList_ofList])
  have hs' : text? (utf8 s') = some (.ofList s') :=
    text?_eq_some_iff.2 (by rw [String.toList_ofList])
  rw [h, hs'] at hs
  exact (String.ofList_inj.1 (Option.some.inj hs)).symm

/-! ### Escapes -/

/-- The byte of an escape. -/
def escape? (c a b : Char) : Option UInt8 :=
  if c = '%' then do
    let x ← hexValue? a
    let y ← hexValue? b
    return .ofNat (x * 16 + y)
  else none

/-- The bytes that a text with escapes stands for. -/
def unescaped : List Char → List UInt8
  | c :: a :: b :: s =>
    match escape? c a b with
    | some x => x :: unescaped s
    | none   => String.utf8EncodeChar c ++ unescaped (a :: b :: s)
  | s => utf8 s

/-- There is an escape somewhere in the text. -/
def hasEscape : List Char → Bool
  | c :: a :: b :: s => (escape? c a b).isSome || hasEscape (a :: b :: s)
  | _ => false

/-- A hexadecimal digit is one of ASCII, and its value is below sixteen. -/
theorem exists_of_hexValue? {c : Char} {n : Nat} (h : hexValue? c = some n) :
    ∃ k < 128, c = Char.ofNat k ∧ n < 16 := by
  have hascii : c.toNat < 128 := by
    rw [hexValue?] at h
    split at h
    · rename_i hdigit
      exact Nat.lt_of_le_of_lt (Char.isDigit_iff_toNat.1 hdigit).2 (by decide)
    · split at h
      · rename_i hlower
        exact Nat.lt_of_le_of_lt (UInt32.le_iff_toNat_le.1 hlower.2) (by decide)
      · split at h
        · rename_i hupper
          exact Nat.lt_of_le_of_lt (UInt32.le_iff_toNat_le.1 hupper.2) (by decide)
        · cases h
  obtain ⟨k, hk, rfl⟩ : ∃ k < 128, c = Char.ofNat k := ⟨c.toNat, hascii, (Char.ofNat_toNat c).symm⟩
  refine ⟨k, hk, rfl, ?_⟩
  have hbound : ∀ k < 128, ∀ n ∈ hexValue? (Char.ofNat k), n < 16 := by decide
  exact hbound k hk n h

theorem hexValue?_hexDigit {n : Nat} (h : n < 16) : hexValue? (hexDigit n) = some n := by
  revert n
  decide

theorem escape?_byte (x : UInt8) :
    escape? '%' (hexDigit (x.toNat / 16)) (hexDigit (x.toNat % 16)) = some x := by
  have hx := x.toNat_lt
  have hsum : x.toNat / 16 * 16 + x.toNat % 16 = x.toNat := by omega
  rw [escape?, if_pos rfl, hexValue?_hexDigit (by omega), hexValue?_hexDigit (by omega)]
  change some (UInt8.ofNat (x.toNat / 16 * 16 + x.toNat % 16)) = some x
  rw [hsum, UInt8.ofNat_toNat]

theorem unescaped_escapedBytes (bytes : List UInt8) (s : List Char) :
    unescaped (bytes.flatMap escapedByte ++ s) = bytes ++ unescaped s := by
  induction bytes with
  | nil => rfl
  | cons x bytes ih =>
    rw [List.flatMap_cons, List.append_assoc, escapedByte, List.cons_append, List.cons_append,
      List.cons_append, List.nil_append, unescaped, escape?_byte, ih]
    rfl

/-- A character that does not begin an escape stands for itself. -/
theorem unescaped_cons {c : Char} {s : List Char}
    (h : ∀ a b t, s = a :: b :: t → escape? c a b = none) :
    unescaped (c :: s) = String.utf8EncodeChar c ++ unescaped s := by
  match s with
  | [] => rfl
  | [a] => rfl
  | a :: b :: t => rw [unescaped, h a b t rfl]

theorem hasEscape_cons {c : Char} {s : List Char}
    (h : ∀ a b t, s = a :: b :: t → escape? c a b = none) : hasEscape (c :: s) = hasEscape s := by
  match s with
  | [] => rfl
  | [a] => rfl
  | a :: b :: t => rw [hasEscape, h a b t rfl, Option.isSome_none, Bool.false_or]

theorem of_escape? {c a b : Char} {x : UInt8} (h : escape? c a b = some x) :
    c = '%' ∧ (hexValue? a).isSome = true ∧ (hexValue? b).isSome = true := by
  rw [escape?] at h
  split at h
  · rename_i hc
    obtain ⟨x, hx, h⟩ := Option.bind_eq_some_iff.1 h
    obtain ⟨y, hy, -⟩ := Option.bind_eq_some_iff.1 h
    exact ⟨hc, by rw [hx]; rfl, by rw [hy]; rfl⟩
  · cases h

/-- A text is empty, or begins with an escape, or with a character that stands for itself. -/
@[elab_as_elim]
theorem escape_induction {motive : List Char → Prop} (nil : motive [])
    (escape : ∀ c a b s x, escape? c a b = some x → motive s → motive (c :: a :: b :: s))
    (plain : ∀ c s, (∀ a b t, s = a :: b :: t → escape? c a b = none) → motive s →
      motive (c :: s)) : ∀ s, motive s
  | [] => nil
  | [c] => plain c [] (fun a b t h => by cases h) nil
  | [c, d] => plain c [d] (fun a b t h => by cases h) (plain d [] (fun a b t h => by cases h) nil)
  | c :: a :: b :: s => by
    cases hx : escape? c a b with
    | some x => exact escape c a b s x hx (escape_induction nil escape plain s)
    | none =>
      refine plain c (a :: b :: s) (fun a' b' t h => ?_)
        (escape_induction nil escape plain (a :: b :: s))
      cases h
      exact hx

/-! ### Escaping -/

/-- Neither percent signs nor hexadecimal digits satisfy `p`. -/
def SparesEscapes (p : Char → Bool) : Prop :=
  p '%' = false ∧ ∀ c, (hexValue? c).isSome = true → p c = false

theorem SparesEscapes.of_ascii {p : Char → Bool} (hsign : p '%' = false)
    (hdigits : ∀ k < 128, (hexValue? (Char.ofNat k)).isSome = true → p (Char.ofNat k) = false) :
    SparesEscapes p := by
  refine ⟨hsign, fun c h => ?_⟩
  obtain ⟨n, hn⟩ := Option.isSome_iff_exists.1 h
  obtain ⟨k, hk, rfl, -⟩ := exists_of_hexValue? hn
  exact hdigits k hk h

theorem sparesEscapes_path : SparesEscapes isForeignToPath :=
  .of_ascii (by decide) (by decide)

theorem sparesEscapes_user : SparesEscapes isForeignToUser :=
  .of_ascii (by decide) (by decide)

theorem escapeWhere_cons (p : Char → Bool) (c : Char) (s : List Char) :
    escapeWhere p (c :: s) = (if p c then escaped c else [c]) ++ escapeWhere p s :=
  List.flatMap_cons

/-- An escape is written with a percent sign and hexadecimal digits. -/
theorem mem_escaped {c d : Char} (h : d ∈ escaped c) : d = '%' ∨ ∃ n < 16, d = hexDigit n := by
  obtain ⟨x, -, hx⟩ := List.mem_flatMap.1 h
  have hbyte := x.toNat_lt
  simp only [escapedByte, List.mem_cons, List.not_mem_nil, or_false] at hx
  rcases hx with rfl | rfl | rfl
  · exact .inl rfl
  · exact .inr ⟨_, by omega, rfl⟩
  · exact .inr ⟨_, by omega, rfl⟩

theorem not_mem_escaped {d : Char} (hd : d ≠ '%') (hdigits : ∀ n < 16, d ≠ hexDigit n) (c : Char) :
    d ∉ escaped c := by
  intro h
  rcases mem_escaped h with h | ⟨n, hn, h⟩
  · exact hd h
  · exact hdigits n hn h

/-- A text begins as it did, or with an escape. -/
theorem head_escapeWhere {p : Char → Bool} {s t : List Char} {a' : Char}
    (h : escapeWhere p s = a' :: t) (ha : (hexValue? a').isSome = true) :
    ∃ rest, s = a' :: rest ∧ t = escapeWhere p rest := by
  cases s with
  | nil => cases h
  | cons a s =>
    rw [escapeWhere_cons] at h
    split at h
    · cases hbytes : String.utf8EncodeChar a with
      | nil => exact absurd hbytes String.utf8EncodeChar_ne_nil
      | cons x bytes =>
        rw [escaped, hbytes] at h
        cases h
        cases ha
    · cases h
      exact ⟨s, rfl, rfl⟩

/-- Escaping changes nothing in what a text stands for. -/
theorem unescaped_escapeWhere {p : Char → Bool} (hp : SparesEscapes p) (s : List Char) :
    unescaped (escapeWhere p s) = unescaped s := by
  induction s using escape_induction with
  | nil => rfl
  | escape c a b s x hx ih =>
    obtain ⟨rfl, ha, hb⟩ := of_escape? hx
    rw [escapeWhere_cons, hp.1, escapeWhere_cons, hp.2 a ha, escapeWhere_cons, hp.2 b hb]
    change unescaped ('%' :: a :: b :: escapeWhere p s) = _
    rw [unescaped, hx, ih, unescaped, hx]
  | plain c s h ih =>
    rw [escapeWhere_cons, unescaped_cons h, ← ih]
    split
    · exact unescaped_escapedBytes _ _
    · refine unescaped_cons fun a b t ht => ?_
      -- the two that would follow the sign are those that followed it before
      cases hx : escape? c a b with
      | none => rfl
      | some x =>
        obtain ⟨-, ha, hb⟩ := of_escape? hx
        obtain ⟨rest, rfl, hrest⟩ := head_escapeWhere ht ha
        obtain ⟨rest, rfl, -⟩ := head_escapeWhere hrest.symm hb
        rw [h a b rest rfl] at hx
        cases hx

/-! ### Texts that are read back -/

theorem length_utf8EncodeChar_pos (c : Char) : 0 < (String.utf8EncodeChar c).length :=
  List.length_pos_iff.2 String.utf8EncodeChar_ne_nil

theorem length_utf8_cons (c : Char) (s : List Char) :
    (utf8 (c :: s)).length = (String.utf8EncodeChar c).length + (utf8 s).length := by
  rw [utf8, List.flatMap_cons, List.length_append]
  rfl

theorem unescaped_of_not_hasEscape {s : List Char} (h : hasEscape s = false) :
    unescaped s = utf8 s := by
  induction s using escape_induction with
  | nil => rfl
  | escape c a b s x hx ih =>
    rw [hasEscape, hx] at h
    cases h
  | plain c s hplain ih =>
    rw [hasEscape_cons hplain] at h
    rw [unescaped_cons hplain, ih h]
    rfl

/-- An escape is longer than the byte that it stands for. -/
theorem length_unescaped_le (s : List Char) :
    (unescaped s).length + (hasEscape s).toNat ≤ (utf8 s).length := by
  induction s using escape_induction with
  | nil => exact Nat.le_refl 0
  | escape c a b s x hx ih =>
    have hc := length_utf8EncodeChar_pos c
    have ha := length_utf8EncodeChar_pos a
    have hb := length_utf8EncodeChar_pos b
    rw [unescaped, hasEscape, hx, length_utf8_cons, length_utf8_cons, length_utf8_cons]
    simp only [List.length_cons, Option.isSome_some, Bool.true_or, Bool.toNat_true]
    omega
  | plain c s hplain ih =>
    rw [unescaped_cons hplain, hasEscape_cons hplain, length_utf8_cons, List.length_append]
    omega

/-- Only nothing stands for nothing. -/
theorem unescaped_eq_nil_iff {s : List Char} : unescaped s = [] ↔ s = [] := by
  refine ⟨fun h => ?_, fun h => by rw [h]; rfl⟩
  induction s using escape_induction with
  | nil => rfl
  | escape c a b s x hx =>
    rw [unescaped, hx] at h
    cases h
  | plain c s hplain =>
    rw [unescaped_cons hplain] at h
    exact absurd (List.append_eq_nil_iff.1 h).1 String.utf8EncodeChar_ne_nil

/-- **A text is read back exactly if it has no escape in it.** -/
theorem unescaped_eq_utf8_iff {s : List Char} : unescaped s = utf8 s ↔ hasEscape s = false := by
  refine ⟨fun h => ?_, unescaped_of_not_hasEscape⟩
  have hlength := length_unescaped_le s
  cases hescape : hasEscape s with
  | false => rfl
  | true =>
    rw [h, hescape, Bool.toNat_true] at hlength
    omega

/-! ### Forms -/

/-- The bytes that a value of a form stands for. -/
def formUnescaped (s : List Char) : List UInt8 :=
  unescaped (s.map fun c => if c = '+' then ' ' else c)

/-- Where percent signs are escaped, a text is read back whatever it is. -/
theorem unescaped_escapeWhere_percent {p : Char → Bool} (hp : p '%' = true) (s : List Char) :
    unescaped (escapeWhere p s) = utf8 s := by
  induction s with
  | nil => rfl
  | cons c s ih =>
    have hutf8 : utf8 (c :: s) = String.utf8EncodeChar c ++ utf8 s := rfl
    rw [escapeWhere_cons, hutf8, ← ih]
    split
    · exact unescaped_escapedBytes _ _
    · rename_i hc
      refine unescaped_cons fun a b t _ => if_neg ?_
      rintro rfl
      exact hc hp

/-- The characters that are escaped in the value of a form. -/
def isForeignToForm (c : Char) : Bool :=
  !(c.isAlphanum || c == '*' || c == '-' || c == '.' || c == '_') && c != ' '

/-- The plus signs of a form's value are its blanks. -/
theorem map_formEscaped (c : Char) : (formEscaped c).map (fun d => if d = '+' then ' ' else d) =
    if isForeignToForm c then escaped c else [c] := by
  rw [formEscaped, isForeignToForm]
  split
  · rename_i hplain
    rw [hplain, Bool.not_true, Bool.false_and, if_neg Bool.false_ne_true, List.map_singleton,
      if_neg (fun h => by subst h; cases hplain)]
  · rename_i hforeign
    rw [Bool.not_eq_true] at hforeign
    rw [hforeign, Bool.not_false, Bool.true_and]
    by_cases hblank : c = ' '
    · subst hblank
      rfl
    · have hplus : ∀ d ∈ escaped c, (if d = '+' then ' ' else d) = d := fun d hd =>
        if_neg fun h => not_mem_escaped (by decide) (by decide) c (h ▸ hd)
      rw [if_neg (mt beq_iff_eq.1 hblank), if_pos (bne_iff_ne.2 hblank), List.map_congr_left hplus,
        List.map_id']

theorem map_formValue (s : List Char) :
    (formValue s).map (fun c => if c = '+' then ' ' else c) = escapeWhere isForeignToForm s := by
  rw [formValue, escapeWhere, List.map_flatMap]
  exact congrArg s.flatMap (funext map_formEscaped)

/-- **A value of a form is read back, whatever it is.** -/
theorem formUnescaped_formValue (s : List Char) : formUnescaped (formValue s) = utf8 s := by
  rw [formUnescaped, map_formValue]
  exact unescaped_escapeWhere_percent rfl s

end RecordLayer.Url
