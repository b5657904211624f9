import RecordLayer.Proofs.Text.Mark
import RecordLayer.Proofs.Text.Trimming
import RecordLayer.Rule.Builtin
import RecordLayer.Rule.Extra

/-!
# Lists of rules

A list of rules is checked from left to right, and a comma between two lists puts one behind the
other (`check_append`).  So the report is that of the first rule that reports something
(`check_joinWith`), and what reports nothing may stand anywhere in a list: blank items, rules that
the book does not know, rules that pass, and for null all but `required`.  Blanks around names,
equals signs and parameters do not count either (`listOf_of_spaced`).
-/

namespace RecordLayer
open Text

/-- Nothing but blanks. -/
def Blanks (s : String) : Prop :=
  ∀ c ∈ s.toList, Text.isBlank c = true

instance (s : String) : Decidable (Blanks s) :=
  decidable_of_iff (s.toList.all Text.isBlank = true) List.all_eq_true

namespace RuleItem

/-- The text between two commas writes the item: a name, or a name and a parameter with an equals
sign between, each with the blanks that may stand around it. -/
inductive Written : RuleItem → String → Prop
  | name {n : String} : ',' ∉ n.toList → '=' ∉ n.toList → ¬ Blanks n → Written ⟨trim n, none⟩ n
  | param {n p : String} : ',' ∉ n.toList → '=' ∉ n.toList → ',' ∉ p.toList →
      Written ⟨trim n, some (trim p)⟩ (n ++ "=" ++ p)

/-- The item on the right is the one on the left with more blanks. -/
inductive Spaced : String → String → Prop
  | around {s a b : String} : ',' ∉ s.toList → Blanks a → Blanks b → Spaced s (a ++ s ++ b)
  | param {n p a b c d : String} : ',' ∉ n.toList → '=' ∉ n.toList → ',' ∉ p.toList →
      Blanks a → Blanks b → Blanks c → Blanks d →
      Spaced (n ++ "=" ++ p) (a ++ n ++ b ++ "=" ++ c ++ p ++ d)

variable {item : RuleItem} {s t : String}

/-! ### Reading a list -/

theorem listOf_append (r₁ r₂ : String) : listOf (r₁ ++ "," ++ r₂) = listOf r₁ ++ listOf r₂ := by
  have htext : (r₁ ++ "," ++ r₂).toList = r₁.toList ++ ',' :: r₂.toList := by simp
  rw [listOf, htext, Text.listItems, cutAt_append_cons, List.map_append, List.filter_append,
    List.map_append]
  rfl

/-- Between two commas there is one item, unless there are blanks only. -/
theorem listOf_of_not_mem (h : ',' ∉ s.toList) :
    listOf s = ([trimmed s.toList].filter (!·.isEmpty)).map ofText := by
  rw [listOf, Text.listItems, cutAt_eq_splitOn, List.splitOn_eq_singleton h, List.map_singleton]

theorem listOf_of_blanks (h : Blanks s) : listOf s = [] := by
  have hcomma : ',' ∉ s.toList := fun hmem => absurd (h _ hmem) (by decide)
  rw [listOf_of_not_mem hcomma, trimmed_eq_nil_iff.2 h]
  rfl

theorem listOf_of_not_blanks (hcomma : ',' ∉ s.toList) (h : ¬ Blanks s) :
    listOf s = [ofText (trimmed s.toList)] := by
  have hsome : (!(trimmed s.toList).isEmpty) = true := by
    simpa using mt trimmed_eq_nil_iff.1 h
  rw [listOf_of_not_mem hcomma, List.filter_singleton, hsome]
  rfl

theorem ofText_of_not_mem {s : List Char} (h : '=' ∉ s) : ofText s = ⟨.ofList s, none⟩ := by
  have hnone : cutFirst? ['='] s = none :=
    cutFirst?_eq_none_iff.2 fun hoccurs => h (hoccurs.subset (List.mem_singleton_self _))
  rw [ofText, hnone]

/-- An item is cut at its first equals sign. -/
theorem ofText_append_cons {n : List Char} (h : '=' ∉ n) (p : List Char) :
    ofText (n ++ '=' :: p) = ⟨.ofList (trimmed n), some (.ofList (trimmed p))⟩ := by
  have hcut : cutFirst? ['='] (n ++ '=' :: p) = some (n, p) := by
    have hcut := cutFirst?_append (endsAt_singleton h) p
    rwa [List.append_assoc] at hcut
  rw [ofText, hcut]

/-- A text that writes an item is a list of that item. -/
theorem listOf_of_written (h : item.Written s) : listOf s = [item] := by
  cases h with
  | name hcomma hequals hsome =>
    have hequals' : '=' ∉ trimmed s.toList := fun hmem => hequals (mem_of_mem_trimmed hmem)
    rw [listOf_of_not_blanks hcomma hsome, ofText_of_not_mem hequals']
    rfl
  | @param n p hcomma hequals hparam =>
    have htext : (n ++ "=" ++ p).toList = n.toList ++ '=' :: p.toList := by simp
    have hcomma' : ',' ∉ (n ++ "=" ++ p).toList := by simp [hcomma, hparam]
    have hsome : ¬ Blanks (n ++ "=" ++ p) := fun hblank => by
      have hequals : Text.isBlank '=' = true := hblank '=' (by simp)
      exact absurd hequals (by decide)
    have hstart : '=' ∉ trimStart n.toList := fun hmem =>
      hequals ((List.dropWhile_sublist _).subset hmem)
    rw [listOf_of_not_blanks hcomma' hsome, htext, trimmed_append_cons (by decide),
      ofText_append_cons hstart, trimmed_trimStart, trimmed_trimEnd]
    rfl

/-- Every text between two commas is blank or writes an item. -/
theorem blanks_or_exists_written (h : ',' ∉ s.toList) :
    Blanks s ∨ ∃ item : RuleItem, item.Written s := by
  by_cases hblank : Blanks s
  · exact .inl hblank
  · refine .inr ?_
    cases hcut : cutFirst? ['='] s.toList with
    | none =>
      have hequals : '=' ∉ s.toList := fun hmem =>
        cutFirst?_eq_none_iff.1 hcut ((List.singleton_infix_iff _ _).2 hmem)
      exact ⟨_, .name h hequals hblank⟩
    | some cut =>
      obtain ⟨hs, hends⟩ := cutFirst?_eq_some_iff.1 hcut
      have htext : s = .ofList cut.1 ++ "=" ++ .ofList cut.2 := by
        rw [← String.ofList_toList (s := s), hs]
        simp [String.append_assoc]
      have hcommas : ',' ∉ cut.1 ∧ ',' ∉ cut.2 := by
        rw [hs] at h
        simpa using h
      rw [htext]
      exact ⟨_, .param (by simpa using hcommas.1) (by simpa using hends.not_mem)
        (by simpa using hcommas.2)⟩

/-! ### Blanks -/

theorem trim_blanks {a b : String} (ha : Blanks a) (hb : Blanks b) (s : String) :
    trim (a ++ s ++ b) = trim s := by
  rw [trim, trim, String.toList_append, String.toList_append, trimmed_append_blanks hb,
    trimmed_blanks_append ha]

theorem not_mem_blanks {c : Char} (hc : Text.isBlank c = false) {a b : String} (ha : Blanks a)
    (hb : Blanks b) (hs : c ∉ s.toList) : c ∉ (a ++ s ++ b).toList := by
  have hnot : ∀ t : String, Blanks t → c ∉ t.toList := fun t ht hmem => by
    rw [ht c hmem] at hc
    cases hc
  simp [hs, hnot a ha, hnot b hb]

/-- More blanks do not make another item. -/
theorem listOf_of_spaced (h : Spaced s t) : listOf t = listOf s := by
  cases h with
  | @around _ a b hcomma ha hb =>
    have htrimmed : trimmed (a ++ s ++ b).toList = trimmed s.toList := by
      rw [String.toList_append, String.toList_append, trimmed_append_blanks hb,
        trimmed_blanks_append ha]
    rw [listOf_of_not_mem hcomma, listOf_of_not_mem (not_mem_blanks (by decide) ha hb hcomma),
      htrimmed]
  | @param n p a b c d hcomma hequals hparam ha hb hc hd =>
    have htext : a ++ n ++ b ++ "=" ++ c ++ p ++ d = (a ++ n ++ b) ++ "=" ++ (c ++ p ++ d) := by
      simp [String.append_assoc]
    have hwritten := Written.param (not_mem_blanks (by decide) ha hb hcomma)
      (not_mem_blanks (by decide) ha hb hequals) (not_mem_blanks (by decide) hc hd hparam)
    rw [htext, listOf_of_written hwritten, listOf_of_written (.param hcomma hequals hparam),
      trim_blanks ha hb, trim_blanks hc hd]

end RuleItem

namespace Rulebook
variable {book : Rulebook} {v : Value} {item : RuleItem} {s : String}

/-! ### Checking a list -/

theorem check_append (book : Rulebook) (v : Value) (r₁ r₂ : String) :
    book.check (r₁ ++ "," ++ r₂) v = (book.check r₁ v).or (book.check r₂ v) := by
  rw [check, RuleItem.listOf_append, firstBroken?, List.find?_append, Option.map_or]
  rfl

/-- A list is checked text by text, up to the first that reports something. -/
theorem check_joinWith (book : Rulebook) (v : Value) (rules : List String) :
    book.check (joinWith "," rules) v = rules.findSome? fun s => book.check s v := by
  induction rules with
  | nil => rfl
  | cons s rules ih =>
    -- One text alone has no comma behind it.
    cases rules with
    | nil => cases hs : book.check s v <;> simp [joinWith, hs]
    | cons t rules =>
      have hjoined : joinWith "," (s :: t :: rules) = s ++ "," ++ joinWith "," (t :: rules) := rfl
      rw [hjoined, check_append, ih]
      cases hs : book.check s v <;> simp [List.findSome?_cons, hs]

theorem check_of_written (h : item.Written s) (book : Rulebook) (v : Value) :
    book.check s v = if book.judge v item = .broken then some item.report else none := by
  rw [check, RuleItem.listOf_of_written h, firstBroken?, List.find?_singleton]
  by_cases hbroken : book.judge v item = .broken <;> simp [hbroken]

theorem judge_null_of_ne (h : item.name ≠ "required") (book : Rulebook) :
    book.judge .null item = .passed := by
  rw [judge, if_pos]
  simpa [Value.isNull] using h

/-- An item that reports nothing about the value. -/
inductive Idle (book : Rulebook) (v : Value) : String → Prop
  | blank {s : String} : Blanks s → Idle book v s
  | unknown {item : RuleItem} {s : String} : item.Written s → book.get? item.name = none →
      Idle book v s
  | passed {item : RuleItem} {s : String} {check : Check} : item.Written s →
      book.get? item.name = some check → check v item.param = true → Idle book v s
  | null {item : RuleItem} {s : String} : item.Written s → v = .null → item.name ≠ "required" →
      Idle book v s

theorem Idle.check_eq_none (h : Idle book v s) : book.check s v = none := by
  cases h with
  | blank hblank => rw [check, RuleItem.listOf_of_blanks hblank]; rfl
  | @unknown item _ hs hget =>
    rw [check_of_written hs, judge, hget]
    split <;> simp
  | @passed item _ check hs hget hpassed =>
    rw [check_of_written hs, judge, hget]
    simp [hpassed]
  | null hs hv hname =>
    rw [check_of_written hs, hv, judge_null_of_ne hname]
    rfl

/-- The list on the right is the one on the left with more in it that does not count: items that
report nothing, in any places, and blanks. -/
inductive Padded (book : Rulebook) (v : Value) : List String → List String → Prop
  | nil : Padded book v [] []
  | keep {s : String} {rules rules' : List String} :
      Padded book v rules rules' → Padded book v (s :: rules) (s :: rules')
  | space {s t : String} {rules rules' : List String} :
      RuleItem.Spaced s t → Padded book v rules rules' → Padded book v (s :: rules) (t :: rules')
  | insert {s : String} {rules rules' : List String} :
      Idle book v s → Padded book v rules rules' → Padded book v rules (s :: rules')

theorem Padded.check_eq {rules rules' : List String} (h : Padded book v rules rules') :
    book.check (joinWith "," rules') v = book.check (joinWith "," rules) v := by
  rw [check_joinWith, check_joinWith]
  induction h with
  | nil => rfl
  | keep _ ih => rw [List.findSome?_cons, List.findSome?_cons, ih]
  | space hspaced _ ih =>
    have hsame : ∀ s t : String, RuleItem.Spaced s t → book.check t v = book.check s v :=
      fun s t hspaced => by rw [check, check, RuleItem.listOf_of_spaced hspaced]
    rw [List.findSome?_cons, List.findSome?_cons, ih, hsame _ _ hspaced]
  | insert hidle _ ih => rw [List.findSome?_cons, hidle.check_eq_none, ih]

/-- Of a list of rules, null is held to those named `required`. -/
theorem check_null (book : Rulebook) (rules : String) : book.check rules .null =
    (book.firstBroken? .null ((RuleItem.listOf rules).filter fun item =>
      item.name = "required")).map RuleItem.report := by
  rw [check, firstBroken?, firstBroken?, List.find?_filter]
  congr 2
  funext item
  rw [Bool.eq_iff_iff]
  by_cases hname : item.name = "required"
  · simp [hname]
  · simp [hname, judge_null_of_ne hname]

/-- **Lists of rules are checked from left to right**, in every book and for every value: a list
reports what its first part reports, and otherwise what the second does.  Nothing changes if items
that report nothing, or blanks, are put anywhere in a list, and null answers to `required` only. -/
theorem check_composes (book : Rulebook) (v : Value) :
    (∀ r₁ r₂, book.check (r₁ ++ "," ++ r₂) v = (book.check r₁ v).or (book.check r₂ v)) ∧
      (∀ rules rules', Padded book v rules rules' →
        book.check (joinWith "," rules') v = book.check (joinWith "," rules) v) ∧
      (∀ s : String, ',' ∉ s.toList → Blanks s ∨ ∃ item : RuleItem, item.Written s) ∧
      ∀ rules, book.check rules .null =
        (book.firstBroken? .null ((RuleItem.listOf rules).filter fun item =>
          item.name = "required")).map RuleItem.report :=
  ⟨book.check_append v, fun _ _ => Padded.check_eq, fun _ => RuleItem.blanks_or_exists_written,
    book.check_null⟩

/-- A book with a rule of its own, and one that it has replaced. -/
def keptBook : Rulebook :=
  (builtin.insert "lowercase" lowercase).insert "len" fun _ param => param.isNone

/-- A text in capitals, held to rules with much between them. -/
theorem padded_rules_report :
    let rules := ["len", "gte=3", "lowercase"]
    let padded := [" ", " len\t", "no_such_rule = 1", "min=2", "gte = 3 ", "lowercase"]
    Padded keptBook (.text "Edge") rules padded ∧
      keptBook.check (joinWith "," padded) (.text "Edge") =
        keptBook.check (joinWith "," rules) (.text "Edge") ∧
      keptBook.check (joinWith "," padded) (.text "Edge") = some "lowercase" := by
  intro rules padded
  have hblank : Blanks " " := by decide
  have htab : Blanks "\t" := by decide
  have hnone : Blanks "" := by decide
  have hunknown : Idle keptBook (.text "Edge") "no_such_rule = 1" :=
    .unknown (.param (n := "no_such_rule ") (p := " 1") (by decide) (by decide) (by decide))
      (by decide +kernel)
  have hpassed : Idle keptBook (.text "Edge") "min=2" :=
    .passed (.param (n := "min") (p := "2") (by decide) (by decide) (by decide)) rfl
      (by decide +kernel)
  have hlen : RuleItem.Spaced "len" " len\t" :=
    .around (s := "len") (by decide) hblank htab
  have hgte : RuleItem.Spaced "gte=3" "gte = 3 " :=
    .param (n := "gte") (p := "3") (by decide) (by decide) (by decide) hnone hblank hblank hblank
  have hpadded : Padded keptBook (.text "Edge") rules padded :=
    .insert (.blank hblank) (.space hlen (.insert hunknown (.insert hpassed (.space hgte
      (.keep .nil)))))
  exact ⟨hpadded, (check_composes keptBook (.text "Edge")).2.1 _ _ hpadded, by decide +kernel⟩

end Rulebook

end RecordLayer
