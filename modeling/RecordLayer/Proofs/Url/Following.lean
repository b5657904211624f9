import RecordLayer.Proofs.Text.Trimming
import RecordLayer.Proofs.Url.Unescaping
import RecordLayer.Url

/-!
# URLs — Paths read back

A text is put into a path by its segments, of which those that are `.` or `..`, also if their points
are escaped, are followed and not kept.  What the path stands for gets shorter by that
(`length_bytes_follow`), and so it does by each tab, line break and escape in the text.  A text is
therefore read back exactly if there is none of these in it (`unescaped_path_iff`).
-/

namespace RecordLayer.Url
open Text

/-! ### Slashes -/

/-- No escape reaches over a slash. -/
theorem escape?_over_slash {c : Char} {s t : List Char}
    (h : ∀ a b r, s = a :: b :: r → escape? c a b = none) {a b : Char} {r : List Char}
    (hr : s ++ '/' :: t = a :: b :: r) : escape? c a b = none := by
  cases hx : escape? c a b with
  | none => rfl
  | some x =>
    obtain ⟨-, ha, hb⟩ := of_escape? hx
    match s with
    | [] =>
      cases hr
      cases ha
    | [d] =>
      cases hr
      cases hb
    | d :: e :: s =>
      cases hr
      rw [h a b s rfl] at hx
      cases hx

theorem unescaped_append_slash (s t : List Char) :
    unescaped (s ++ '/' :: t) = unescaped s ++ unescaped ('/' :: t) := by
  induction s using escape_induction with
  | nil => rfl
  | escape c a b s x hx ih =>
    simp only [List.cons_append, unescaped, hx, ih]
  | plain c s h ih =>
    rw [List.cons_append, unescaped_cons h, unescaped_cons fun _ _ _ => escape?_over_slash h, ih,
      List.append_assoc]

theorem hasEscape_append_slash (s t : List Char) :
    hasEscape (s ++ '/' :: t) = (hasEscape s || hasEscape ('/' :: t)) := by
  induction s using escape_induction with
  | nil => rfl
  | escape c a b s x hx ih =>
    simp only [List.cons_append, hasEscape, hx, Option.isSome_some, Bool.true_or]
  | plain c s h ih =>
    rw [List.cons_append, hasEscape_cons h, hasEscape_cons fun _ _ _ => escape?_over_slash h, ih]

theorem unescaped_cons_slash (s : List Char) : unescaped ('/' :: s) = 47 :: unescaped s :=
  unescaped_cons fun _ _ _ _ => rfl

theorem hasEscape_cons_slash (s : List Char) : hasEscape ('/' :: s) = hasEscape s :=
  hasEscape_cons fun _ _ _ _ => rfl

namespace Path

/-- The bytes that a path stands for. -/
def bytes (path : Path) : List UInt8 :=
  path.flatMap fun segment => 47 :: unescaped segment

theorem render_cons (segment : List Char) (rest : Path) :
    Path.render (segment :: rest) = '/' :: (segment ++ Path.render rest) :=
  rfl

theorem unescaped_render (path : Path) : unescaped path.render = path.bytes := by
  induction path with
  | nil => rfl
  | cons segment rest ih =>
    have hsegment : unescaped (segment ++ Path.render rest) =
        unescaped segment ++ unescaped (Path.render rest) := by
      cases rest with
      | nil =>
        rw [Path.render, List.flatMap_nil, List.append_nil]
        exact (List.append_nil _).symm
      | cons next rest => exact unescaped_append_slash _ _
    rw [render_cons, unescaped_cons_slash, hsegment, ih]
    rfl

theorem hasEscape_render (path : Path) : hasEscape path.render = path.any hasEscape := by
  induction path with
  | nil => rfl
  | cons segment rest ih =>
    have hsegment : hasEscape (segment ++ Path.render rest) =
        (hasEscape segment || hasEscape (Path.render rest)) := by
      cases rest with
      | nil =>
        rw [Path.render, List.flatMap_nil, List.append_nil]
        exact (Bool.or_false _).symm
      | cons next rest => exact hasEscape_append_slash _ _
    rw [render_cons, hasEscape_cons_slash, hsegment, ih]
    rfl

/-! ### Following -/

/-- The segment is followed, not kept. -/
def isDots (segment : List Char) : Bool :=
  isParent segment || isHere segment

theorem eq_of_hexValue?_two {c : Char} (h : hexValue? c = some 2) : c = '2' := by
  obtain ⟨k, hk, rfl, -⟩ := exists_of_hexValue? h
  revert h
  revert k
  decide

theorem eq_of_hexValue?_fourteen {c : Char} (h : hexValue? c = some 14) : c = 'e' ∨ c = 'E' := by
  obtain ⟨k, hk, rfl, -⟩ := exists_of_hexValue? h
  revert h
  revert k
  decide

theorem eq_of_escape?_point {c a b : Char} (h : escape? c a b = some 46) :
    c = '%' ∧ a = '2' ∧ (b = 'e' ∨ b = 'E') := by
  obtain ⟨rfl, -, -⟩ := of_escape? h
  rw [escape?, if_pos rfl] at h
  obtain ⟨x, hx, h⟩ := Option.bind_eq_some_iff.1 h
  obtain ⟨y, hy, h⟩ := Option.bind_eq_some_iff.1 h
  obtain ⟨-, -, -, hx16⟩ := exists_of_hexValue? hx
  obtain ⟨-, -, -, hy16⟩ := exists_of_hexValue? hy
  have hsum := congrArg UInt8.toNat (Option.some.inj h)
  rw [UInt8.toNat_ofNat_of_lt' (by change _ < 256; omega)] at hsum
  change x * 16 + y = 46 at hsum
  obtain ⟨rfl, rfl⟩ : x = 2 ∧ y = 14 := by omega
  exact ⟨rfl, eq_of_hexValue?_two hx, eq_of_hexValue?_fourteen hy⟩

theorem withPoints_cons {c : Char} {s : List Char}
    (h : ∀ a b t, s = a :: b :: t → escape? c a b ≠ some 46) :
    withPoints (c :: s) = c :: withPoints s := by
  rw [withPoints]
  · rintro t rfl rfl
    exact h '2' 'e' t rfl rfl
  · rintro t rfl rfl
    exact h '2' 'E' t rfl rfl

theorem utf8_points (n : Nat) : utf8 (List.replicate n '.') = List.replicate n 46 := by
  induction n with
  | zero => rfl
  | succ n ih =>
    rw [List.replicate_succ, List.replicate_succ, ← ih]
    rfl

/-- Points count, written out or escaped. -/
theorem withPoints_eq_replicate_iff {s : List Char} {n : Nat} :
    withPoints s = List.replicate n '.' ↔ unescaped s = List.replicate n 46 := by
  induction s using escape_induction generalizing n with
  | nil => cases n <;> simp [withPoints, unescaped, utf8]
  | escape c a b s x hx ih =>
    have hunescaped : unescaped (c :: a :: b :: s) = x :: unescaped s := by rw [unescaped, hx]
    rw [hunescaped]
    -- the escape of a point is written out, any other keeps its sign, which is no point
    by_cases hpoint : x = 46
    · rw [hpoint] at hx ⊢
      have hpoints : withPoints (c :: a :: b :: s) = '.' :: withPoints s := by
        obtain ⟨rfl, rfl, rfl | rfl⟩ := eq_of_escape?_point hx <;> rfl
      rw [hpoints]
      cases n with
      | zero => exact ⟨(fun h => by cases h), fun h => by cases h⟩
      | succ n =>
        rw [List.replicate_succ, List.replicate_succ, List.cons_inj_right, List.cons_inj_right]
        exact ih
    · have hkept : withPoints (c :: a :: b :: s) = c :: withPoints (a :: b :: s) := by
        refine withPoints_cons fun a' b' t h => ?_
        cases h
        rw [hx]
        exact fun h => hpoint (Option.some.inj h)
      obtain ⟨rfl, -, -⟩ := of_escape? hx
      rw [hkept]
      cases n with
      | zero => exact ⟨(fun h => by cases h), fun h => by cases h⟩
      | succ n =>
        rw [List.replicate_succ, List.replicate_succ]
        refine ⟨(fun h => ?_), fun h => absurd (List.cons.inj h).1 hpoint⟩
        cases (List.cons.inj h).1
  | plain c s h ih =>
    rw [unescaped_cons h, withPoints_cons fun a b t ht => by rw [h a b t ht]; simp]
    by_cases hpoint : c = '.'
    · subst hpoint
      cases n with
      | zero => exact ⟨(fun h => by cases h), fun h => by cases h⟩
      | succ n =>
        change _ ↔ 46 :: unescaped s = _
        rw [List.replicate_succ, List.replicate_succ, List.cons_inj_right, List.cons_inj_right]
        exact ih
    · refine ⟨fun h => ?_, fun h => ?_⟩
      · exact absurd (List.eq_of_mem_replicate (h ▸ List.mem_cons_self)) hpoint
      · obtain ⟨-, hbytes, -⟩ := List.append_eq_replicate_iff.1 h
        rw [← utf8_points, ← List.append_nil (String.utf8EncodeChar c)] at hbytes
        have hpoints := utf8_injective (s := [c]) hbytes
        exact absurd (List.eq_of_mem_replicate (hpoints ▸ List.mem_cons_self)) hpoint

theorem isDots_iff {segment : List Char} :
    isDots segment = true ↔ unescaped segment = [46, 46] ∨ unescaped segment = [46] := by
  rw [isDots, Bool.or_eq_true, isParent, isHere, beq_iff_eq, beq_iff_eq]
  exact or_congr (withPoints_eq_replicate_iff (n := 2)) (withPoints_eq_replicate_iff (n := 1))

theorem length_bytes_cons (segment : List Char) (path : Path) :
    (bytes (segment :: path)).length = (unescaped segment).length + 1 + (bytes path).length := by
  rw [bytes, List.flatMap_cons, List.length_append, List.length_cons]
  rfl

theorem length_bytes_reverse (path : Path) :
    (bytes path.reverse).length = (bytes path).length := by
  rw [bytes, bytes]
  exact (List.Perm.flatMap_right _ path.reverse_perm).length_eq

theorem length_bytes_leave (place : List (List Char)) :
    (bytes (leave place)).length ≤ (bytes place).length := by
  cases place with
  | nil => exact Nat.le_refl 0
  | cons segment outer =>
    rw [leave]
    split
    · exact Nat.le_refl _
    · rw [length_bytes_cons]
      omega

theorem length_unescaped_pos_of_isDots {segment : List Char} (h : isDots segment = true) :
    0 < (unescaped segment).length := by
  rcases isDots_iff.1 h with h | h
  · rw [h]
    exact Nat.zero_lt_two
  · rw [h]
    exact Nat.zero_lt_one

/-- Where nothing is to be followed, all segments are kept. -/
theorem follow_eq {place segments : List (List Char)} (h : segments.any isDots = false) :
    follow place segments = place.reverse ++ segments := by
  fun_induction follow place segments with
  | case1 place => rw [List.append_nil]
  | case2 place segment hparent => simp [isDots, hparent] at h
  | case3 place segment _ hhere => simp [isDots, hhere] at h
  | case4 place segment => rw [List.reverse_cons]
  | case5 place segment rest _ hparent ih => simp [isDots, hparent] at h
  | case6 place segment rest _ _ hhere ih => simp [isDots, hhere] at h
  | case7 place segment rest _ _ _ ih =>
    rw [List.any_cons, Bool.or_eq_false_iff] at h
    rw [ih h.2, List.reverse_cons, List.append_assoc]
    rfl

/-- Following adds no segments but empty ones. -/
theorem mem_follow {place segments : List (List Char)} {segment : List Char}
    (h : segment ∈ follow place segments) :
    segment = [] ∨ segment ∈ place ∨ segment ∈ segments := by
  have hleave : ∀ {place : List (List Char)}, segment ∈ leave place → segment ∈ place := by
    intro place hmem
    cases place with
    | nil => exact hmem
    | cons first outer =>
      rw [leave] at hmem
      split at hmem
      · exact hmem
      · exact List.mem_cons_of_mem _ hmem
  fun_induction follow place segments with
  | case1 place => exact .inr (.inl (List.mem_reverse.1 h))
  | case2 place =>
    rcases List.mem_cons.1 (List.mem_reverse.1 h) with h | h
    · exact .inl h
    · exact .inr (.inl (hleave h))
  | case3 place =>
    rcases List.mem_cons.1 (List.mem_reverse.1 h) with h | h
    · exact .inl h
    · exact .inr (.inl h)
  | case4 place =>
    rcases List.mem_cons.1 (List.mem_reverse.1 h) with rfl | h
    · exact .inr (.inr List.mem_cons_self)
    · exact .inr (.inl h)
  | case5 place _ rest _ _ ih =>
    rcases ih h with h | h | h
    · exact .inl h
    · exact .inr (.inl (hleave h))
    · exact .inr (.inr (List.mem_cons_of_mem _ h))
  | case6 place _ rest _ _ _ ih =>
    rcases ih h with h | h | h
    · exact .inl h
    · exact .inr (.inl h)
    · exact .inr (.inr (List.mem_cons_of_mem _ h))
  | case7 place _ rest _ _ _ ih =>
    rcases ih h with h | h | h
    · exact .inl h
    · rcases List.mem_cons.1 h with rfl | h
      · exact .inr (.inr List.mem_cons_self)
      · exact .inr (.inl h)
    · exact .inr (.inr (List.mem_cons_of_mem _ h))

/-- Some segment is left. -/
theorem follow_ne_nil {segments : List (List Char)} (h : segments ≠ [])
    (place : List (List Char)) : follow place segments ≠ [] := by
  fun_induction follow place segments with
  | case1 => exact absurd rfl h
  | case2 => exact List.reverse_ne_nil_iff.2 (List.cons_ne_nil _ _)
  | case3 => exact List.reverse_ne_nil_iff.2 (List.cons_ne_nil _ _)
  | case4 => exact List.reverse_ne_nil_iff.2 (List.cons_ne_nil _ _)
  | case5 _ _ _ hrest _ ih => exact ih fun h => hrest h
  | case6 _ _ _ hrest _ _ ih => exact ih fun h => hrest h
  | case7 _ _ _ hrest _ _ ih => exact ih fun h => hrest h

/-- A path stands for less than its segments if any of them is followed. -/
theorem length_bytes_follow (place segments : List (List Char)) :
    (bytes (follow place segments)).length + (segments.any isDots).toNat ≤
      (bytes place).length + (bytes segments).length := by
  fun_induction follow place segments with
  | case1 place =>
    rw [length_bytes_reverse]
    exact Nat.le_refl _
  | case2 place segment hparent =>
    -- what is followed takes its points with it, and what it leaves is not longer than before
    have hdots : isDots segment = true := by rw [isDots, hparent, Bool.true_or]
    have hsegment := length_unescaped_pos_of_isDots hdots
    have hleave := length_bytes_leave place
    rw [length_bytes_reverse, length_bytes_cons, length_bytes_cons, List.any_cons, hdots]
    simp only [unescaped, utf8, List.flatMap_nil, List.length_nil, Bool.true_or, Bool.toNat_true]
    omega
  | case3 place segment _ hhere =>
    have hdots : isDots segment = true := by rw [isDots, hhere, Bool.or_true]
    have hsegment := length_unescaped_pos_of_isDots hdots
    rw [length_bytes_reverse, length_bytes_cons, length_bytes_cons, List.any_cons, hdots]
    simp only [unescaped, utf8, List.flatMap_nil, List.length_nil, Bool.true_or, Bool.toNat_true]
    omega
  | case4 place segment hparent hhere =>
    have hdots : isDots segment = false := by
      rw [isDots, eq_false_of_ne_true hparent, eq_false_of_ne_true hhere]
      rfl
    rw [length_bytes_reverse, length_bytes_cons, length_bytes_cons, List.any_cons, hdots]
    simp only [List.any_nil, Bool.or_false, Bool.toNat_false]
    omega
  | case5 place segment rest _ hparent ih =>
    have hdots : isDots segment = true := by rw [isDots, hparent, Bool.true_or]
    have hsegment := length_unescaped_pos_of_isDots hdots
    have hleave := length_bytes_leave place
    rw [length_bytes_cons, List.any_cons, hdots, Bool.true_or, Bool.toNat_true]
    omega
  | case6 place segment rest _ _ hhere ih =>
    have hdots : isDots segment = true := by rw [isDots, hhere, Bool.or_true]
    have hsegment := length_unescaped_pos_of_isDots hdots
    rw [length_bytes_cons, List.any_cons, hdots, Bool.true_or, Bool.toNat_true]
    omega
  | case7 place segment rest _ hparent hhere ih =>
    have hdots : isDots segment = false := by
      rw [isDots, eq_false_of_ne_true hparent, eq_false_of_ne_true hhere]
      rfl
    rw [length_bytes_cons] at ih ⊢
    rw [List.any_cons, hdots, Bool.false_or]
    omega

/-! ### The path of a text -/

theorem render_cutAt (s : List Char) : Path.render (cutAt '/' s) = '/' :: s := by
  induction s with
  | nil => rfl
  | cons c s ih =>
    rw [cutAt, cutWhere]
    rw [cutAt] at ih
    split
    · rename_i hslash
      rw [beq_iff_eq.1 hslash]
      exact congrArg ('/' :: ·) ih
    · split
      · rename_i hnil
        rw [hnil] at ih
        cases ih
      · rename_i piece rest hpieces
        rw [hpieces] at ih
        exact congrArg (fun t => '/' :: c :: t) (List.cons.inj ih).2

/-- Escaping leaves the slashes where they are. -/
theorem cutAt_escapeWhere {p : Char → Bool} (hp : p '/' = false) (s : List Char) :
    cutAt '/' (escapeWhere p s) = (cutAt '/' s).map (escapeWhere p) := by
  induction s with
  | nil => rfl
  | cons c s ih =>
    rw [escapeWhere_cons]
    by_cases hslash : c = '/'
    · subst hslash
      rw [hp, if_neg Bool.false_ne_true]
      exact congrArg ([] :: ·) ih
    · have hnot : '/' ∉ (if p c then escaped c else [c]) := by
        split
        · exact not_mem_escaped (by decide) (by decide) c
        · exact fun h => hslash (List.mem_singleton.1 h).symm
      rw [cutAt_append hnot, ih, cutAt_cons_of_ne hslash]
      cases hpieces : cutAt '/' s with
      | nil => exact absurd hpieces (cutAt_ne_nil '/' s)
      | cons piece rest => exact congrArg (· :: _) (escapeWhere_cons p c piece).symm

theorem bytes_cutAt (s : List Char) : bytes (cutAt '/' s) = 47 :: unescaped s := by
  rw [← unescaped_render, render_cutAt, unescaped_cons_slash]

/-- What is read back as it was put into a path: neither tabs nor line breaks, no escapes, and no
segment of points that would be followed. -/
structure IsPlain (name : List Char) : Prop where
  layout : ∀ c ∈ name, isLayout c = false
  escapes : hasEscape name = false
  dots : ∀ segment ∈ cutAt '/' name, segment ≠ ['.', '.'] ∧ segment ≠ ['.']

/-- Without escapes, what would be followed is what is written so. -/
theorem any_isDots_eq_false_iff {name : List Char} (h : hasEscape name = false) :
    (cutAt '/' (escapeWhere isForeignToPath name)).any isDots = false ↔
      ∀ segment ∈ cutAt '/' name, segment ≠ ['.', '.'] ∧ segment ≠ ['.'] := by
  have hsegments : (cutAt '/' name).any hasEscape = false := by
    rw [← hasEscape_render, render_cutAt, hasEscape_cons_slash, h]
  rw [cutAt_escapeWhere (by decide), List.any_map, List.any_eq_false]
  refine forall₂_congr fun segment hsegment => ?_
  have hescape : hasEscape segment = false :=
    eq_false_of_ne_true (List.any_eq_false.1 hsegments segment hsegment)
  rw [Function.comp_apply, isDots_iff, unescaped_escapeWhere sparesEscapes_path,
    unescaped_of_not_hasEscape hescape, not_or]
  have hpoints : ∀ points : List Char, utf8 segment = utf8 points ↔ segment = points :=
    fun points => ⟨utf8_injective, congrArg utf8⟩
  exact and_congr (not_congr (hpoints ['.', '.'])) (not_congr (hpoints ['.']))

theorem length_utf8_filter (name : List Char) :
    (utf8 (name.filter (!isLayout ·))).length + (name.any isLayout).toNat ≤ (utf8 name).length := by
  induction name with
  | nil => exact Nat.le_refl 0
  | cons c name ih =>
    have hc := length_utf8EncodeChar_pos c
    rw [length_utf8_cons, List.any_cons]
    cases hlayout : isLayout c with
    | true =>
      rw [List.filter_cons_of_neg (by simp [hlayout]), Bool.true_or, Bool.toNat_true]
      omega
    | false =>
      rw [List.filter_cons_of_pos (by simp [hlayout]), length_utf8_cons, Bool.false_or]
      omega

/-- **A text is read back from a path exactly if it is plain.** -/
theorem unescaped_path_iff {name : List Char} {text : List Char}
    (h : Path.render (ofText (name.filter (!isLayout ·))) = '/' :: text) :
    unescaped text = utf8 name ↔ IsPlain name := by
  have htext : 47 :: unescaped text = bytes (ofText (name.filter (!isLayout ·))) := by
    rw [← unescaped_render, h, unescaped_cons_slash]
  constructor
  · intro hread
    -- following, unescaping and leaving out can but shorten the text, and none of them has
    have hfollow := length_bytes_follow [] (cutAt '/' (escapeWhere isForeignToPath
      (name.filter (!isLayout ·))))
    have hunescape := length_unescaped_le (name.filter (!isLayout ·))
    have hfilter := length_utf8_filter name
    rw [bytes_cutAt, unescaped_escapeWhere sparesEscapes_path] at hfollow
    rw [hread, ofText] at htext
    rw [← htext] at hfollow
    simp only [List.length_cons, bytes, List.flatMap_nil, List.length_nil] at hfollow
    have hlayout : name.any isLayout = false := Bool.toNat_eq_zero.1 (by omega)
    have hescapes : hasEscape (name.filter (!isLayout ·)) = false :=
      Bool.toNat_eq_zero.1 (by omega)
    have hdots : (cutAt '/' (escapeWhere isForeignToPath (name.filter (!isLayout ·)))).any isDots =
        false := Bool.toNat_eq_zero.1 (by omega)
    have hkept : ∀ c ∈ name, isLayout c = false := fun c hc =>
      eq_false_of_ne_true (List.any_eq_false.1 hlayout c hc)
    have hsame : name.filter (!isLayout ·) = name :=
      List.filter_eq_self.2 fun c hc => by rw [hkept c hc]; rfl
    rw [hsame] at hescapes hdots
    exact ⟨hkept, hescapes, (any_isDots_eq_false_iff hescapes).1 hdots⟩
  · rintro ⟨hlayout, hescapes, hdots⟩
    have hsame : name.filter (!isLayout ·) = name :=
      List.filter_eq_self.2 fun c hc => by rw [hlayout c hc]; rfl
    rw [hsame, ofText, follow_eq ((any_isDots_eq_false_iff hescapes).2 hdots), List.reverse_nil,
      List.nil_append, bytes_cutAt, unescaped_escapeWhere sparesEscapes_path,
      unescaped_of_not_hasEscape hescapes] at htext
    exact (List.cons.inj htext).2

end Path

end RecordLayer.Url
