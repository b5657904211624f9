import Mathlib.Algebra.Order.Field.Rat
import Mathlib.Data.Rat.Cast.Order
import RecordLayer.Proofs.Rule.Composition

/-!
# Rules that compare

Seven rules compare what a value measures with a bound: texts measure their number of characters,
whole numbers and decimals themselves (`Value.measure`).  They do so by the numbers that measure and
bound stand for, whatever their scales (`lt_iff`, `gt_iff`, `len_iff`), and hence agree with one
another: of `lt`, `len` and `gt` just one passes, and the others say which of them may
(`comparisons_agree`).  Without a bound, or for a value that measures nothing, all of them are
broken; null passes.
-/

namespace RecordLayer

/-! ### Measures -/

theorem tenTo_add (m n : Nat) : tenTo (m + n) = tenTo m * tenTo n :=
  Nat.pow_add 10 m n

namespace Decimal

/-- The number that a decimal stands for. -/
def value (d : Decimal) : ℚ :=
  (if d.negative then -1 else 1) * d.mantissa / tenTo d.scale

theorem units_eq (d : Decimal) : (d.units : ℚ) = d.value * tenTo 28 := by
  have hpower : (tenTo 28 : ℚ) = tenTo (28 - d.scale) * tenTo d.scale := by
    rw [← Nat.cast_mul, ← tenTo_add, Nat.sub_add_cancel d.scale_le]
  have hne : (tenTo d.scale : ℚ) ≠ 0 := by
    exact_mod_cast (tenTo_pos d.scale).ne'
  have hsign : (d.units : ℚ) =
      (if d.negative then -1 else 1) * (d.mantissa * tenTo (28 - d.scale)) := by
    rw [units]
    push_cast
    split
    · rw [neg_one_mul]
    · rw [one_mul]
  rw [hsign, value, hpower, div_mul_eq_mul_div, eq_div_iff hne, mul_assoc, mul_assoc, mul_assoc]

end Decimal

/-- What a value measures: a text its number of characters, a number itself. -/
def Value.measure : Value → Option ℚ
  | .text s    => some s.length
  | .int n     => some n.toInt
  | .decimal d => some d.value
  | .null | .bool _ | .timestamp _ => none

namespace Rulebook

theorem measure?_eq_none {v : Value} (h : v.measure = none) : measure? v = none := by
  cases v with
  | text s => cases h
  | int n => cases h
  | decimal d => cases h
  | _ => rfl

theorem ofInt_units (n : Int64) : (Decimal.ofInt n).units = n.toInt * tenTo 28 := by
  rw [Decimal.units, Decimal.ofInt]
  by_cases hneg : n.toInt < 0
  · simp only [hneg, decide_true, if_true]
    have habs : (n.toInt.natAbs : Int) = -n.toInt := by omega
    rw [habs, Nat.sub_zero, Int.neg_mul, Int.neg_neg]
  · simp only [hneg, decide_false, Bool.false_eq_true, if_false]
    have habs : (n.toInt.natAbs : Int) = n.toInt := by omega
    rw [habs]

/-- Measures are taken in units of `10⁻²⁸`. -/
theorem exists_measure? {v : Value} {m : ℚ} (h : v.measure = some m) :
    ∃ x, measure? v = some x ∧ (x : ℚ) = m * tenTo 28 := by
  cases v with
  | text s =>
    obtain rfl := Option.some.inj h
    exact ⟨_, rfl, by push_cast; rfl⟩
  | int n =>
    obtain rfl := Option.some.inj h
    exact ⟨_, rfl, by rw [ofInt_units]; push_cast; rfl⟩
  | decimal d =>
    obtain rfl := Option.some.inj h
    exact ⟨_, rfl, d.units_eq⟩
  | null => cases h
  | bool b => cases h
  | timestamp t => cases h

/-! ### Rules with their parameters -/

/-- The rules that compare. -/
def comparisons : List String :=
  ["gte", "min", "lte", "max", "gt", "lt", "len"]

/-- A rule as it stands in a list, with its parameter if it has one. -/
def ruleText (rule : String) : Option String → String
  | none   => rule
  | some p => rule ++ "=" ++ p

/-- A parameter has no comma in it. -/
def IsParam (param : Option String) : Prop :=
  ∀ p ∈ param, ',' ∉ p.toList

/-- The bound that a parameter gives, if it is a decimal. -/
def bound? (param : Option String) : Option Decimal :=
  param.bind fun p => Decimal.ofText? (trim p)

/-- The value breaks no builtin rule of that name and parameter. -/
def Passes (v : Value) (rule : String) (param : Option String) : Prop :=
  builtin.check (ruleText rule param) v = none

variable {v : Value} {rule : String} {param : Option String}

theorem written_ruleText (hrule : rule ∈ comparisons) (hparam : IsParam param) :
    RuleItem.Written ⟨rule, param.map trim⟩ (ruleText rule param) := by
  have hplain : ∀ rule ∈ comparisons, ',' ∉ rule.toList ∧ '=' ∉ rule.toList ∧ trim rule = rule ∧
      ¬ Blanks rule := by
    decide +kernel
  obtain ⟨hcomma, hequals, htrim, hsome⟩ := hplain rule hrule
  cases param with
  | none =>
    have hwritten := RuleItem.Written.name hcomma hequals hsome
    rwa [htrim] at hwritten
  | some p =>
    have hwritten := RuleItem.Written.param hcomma hequals (hparam p rfl)
    rwa [htrim] at hwritten

/-- Every one of them compares the measure with the bound. -/
theorem exists_comparison (hrule : rule ∈ comparisons) :
    ∃ r, builtin.get? rule = some (comparison r) := by
  simp only [comparisons, List.mem_cons, List.not_mem_nil, or_false] at hrule
  rcases hrule with rfl | rfl | rfl | rfl | rfl | rfl | rfl
  · exact ⟨fun a b => b ≤ a, rfl⟩
  · exact ⟨fun a b => b ≤ a, rfl⟩
  · exact ⟨fun a b => a ≤ b, rfl⟩
  · exact ⟨fun a b => a ≤ b, rfl⟩
  · exact ⟨fun a b => b < a, rfl⟩
  · exact ⟨fun a b => a < b, rfl⟩
  · exact ⟨fun a b => a == b, rfl⟩

theorem check_ruleText (hrule : rule ∈ comparisons) (hparam : IsParam param)
    {r : Int → Int → Bool} (hget : builtin.get? rule = some (comparison r))
    (hv : v ≠ .null) : builtin.check (ruleText rule param) v =
      if comparison r v (param.map trim) then none
      else some (RuleItem.report ⟨rule, param.map trim⟩) := by
  have hnull : v.isNull = false := by
    cases v with
    | null => exact absurd rfl hv
    | _ => rfl
  rw [check_of_written (written_ruleText hrule hparam), judge, hnull, hget]
  cases hcompare : comparison r v (param.map trim) <;> simp [hcompare]

theorem bind_ofText? (param : Option String) :
    (param.map trim).bind Decimal.ofText? = bound? param := by
  rw [Option.bind_map, bound?, Function.comp_def]

theorem comparison_eq {r : Int → Int → Bool} {b : Decimal} {x : Int}
    (hb : bound? param = some b) (hx : measure? v = some x) :
    comparison r v (param.map trim) = r x b.units := by
  rw [comparison, bind_ofText?, hb, hx]

/-- Without a measure or a bound there is nothing to compare. -/
theorem comparison_eq_false (r : Int → Int → Bool)
    (h : v.measure = none ∨ bound? param = none) :
    comparison r v (param.map trim) = false := by
  rw [comparison, bind_ofText?]
  rcases h with h | h
  · cases bound? param with
    | none => rfl
    | some b => simp only [measure?_eq_none h]
  · simp only [h]

/-! ### Passing a rule -/

section
variable {m : ℚ} {b : Decimal} {x : Int}

theorem passes_iff_relation (hrule : rule ∈ comparisons) (hparam : IsParam param)
    {r : Int → Int → Bool} (hget : builtin.get? rule = some (comparison r))
    (hx : measure? v = some x) (hb : bound? param = some b) :
    Passes v rule param ↔ r x b.units = true := by
  have hv : v ≠ .null := by
    rintro rfl
    cases hx
  rw [Passes, check_ruleText hrule hparam hget hv, comparison_eq hb hx]
  cases r x b.units <;> simp

/-- A rule passes if its relation holds between measure and bound in units. -/
theorem passes_iff (hrule : rule ∈ comparisons) (hparam : IsParam param)
    {r : Int → Int → Bool} (hget : builtin.get? rule = some (comparison r))
    (hm : v.measure = some m) (hb : bound? param = some b) {holds : Prop}
    (hholds : ∀ x : Int, (x : ℚ) = m * tenTo 28 → (r x b.units = true ↔ holds)) :
    Passes v rule param ↔ holds := by
  obtain ⟨x, hx, hxm⟩ := exists_measure? hm
  exact (passes_iff_relation hrule hparam hget hx hb).trans (hholds x hxm)

theorem units_lt_iff {x y : Int} {p q : ℚ} (hx : (x : ℚ) = p * tenTo 28)
    (hy : (y : ℚ) = q * tenTo 28) : x < y ↔ p < q := by
  have hpos : (0 : ℚ) < tenTo 28 := by exact_mod_cast tenTo_pos 28
  rw [← Int.cast_lt (R := ℚ), hx, hy, mul_lt_mul_iff_left₀ hpos]

theorem units_le_iff {x y : Int} {p q : ℚ} (hx : (x : ℚ) = p * tenTo 28)
    (hy : (y : ℚ) = q * tenTo 28) : x ≤ y ↔ p ≤ q := by
  rw [← not_lt, ← not_lt, units_lt_iff hy hx]

theorem units_eq_iff {x y : Int} {p q : ℚ} (hx : (x : ℚ) = p * tenTo 28)
    (hy : (y : ℚ) = q * tenTo 28) : x = y ↔ p = q := by
  rw [le_antisymm_iff, le_antisymm_iff, units_le_iff hx hy, units_le_iff hy hx]

theorem lt_iff (hparam : IsParam param) (hm : v.measure = some m) (hb : bound? param = some b) :
    Passes v "lt" param ↔ m < b.value := by
  refine passes_iff (by decide) hparam (r := fun x y => x < y) rfl hm hb fun x hx => ?_
  rw [decide_eq_true_iff, units_lt_iff hx b.units_eq]

theorem gt_iff (hparam : IsParam param) (hm : v.measure = some m) (hb : bound? param = some b) :
    Passes v "gt" param ↔ b.value < m := by
  refine passes_iff (by decide) hparam (r := fun x y => y < x) rfl hm hb fun x hx => ?_
  rw [decide_eq_true_iff, units_lt_iff b.units_eq hx]

theorem len_iff (hparam : IsParam param) (hm : v.measure = some m) (hb : bound? param = some b) :
    Passes v "len" param ↔ m = b.value := by
  refine passes_iff (by decide) hparam (r := fun x y => x == y) rfl hm hb fun x hx => ?_
  rw [beq_iff_eq, units_eq_iff hx b.units_eq]

theorem gte_iff (hrule : rule ∈ ["gte", "min"]) (hparam : IsParam param)
    (hm : v.measure = some m) (hb : bound? param = some b) :
    Passes v rule param ↔ b.value ≤ m := by
  have hholds : ∀ x : Int, (x : ℚ) = m * tenTo 28 → (decide (b.units ≤ x) = true ↔ b.value ≤ m) :=
    fun x hx => by rw [decide_eq_true_iff, units_le_iff b.units_eq hx]
  simp only [List.mem_cons, List.not_mem_nil, or_false] at hrule
  rcases hrule with rfl | rfl
  all_goals exact passes_iff (by decide) hparam (r := fun x y => y ≤ x) rfl hm hb hholds

theorem lte_iff (hrule : rule ∈ ["lte", "max"]) (hparam : IsParam param)
    (hm : v.measure = some m) (hb : bound? param = some b) :
    Passes v rule param ↔ m ≤ b.value := by
  have hholds : ∀ x : Int, (x : ℚ) = m * tenTo 28 → (decide (x ≤ b.units) = true ↔ m ≤ b.value) :=
    fun x hx => by rw [decide_eq_true_iff, units_le_iff hx b.units_eq]
  simp only [List.mem_cons, List.not_mem_nil, or_false] at hrule
  rcases hrule with rfl | rfl
  all_goals exact passes_iff (by decide) hparam (r := fun x y => x ≤ y) rfl hm hb hholds

/-- Two parameters for the same number make the same rule. -/
theorem passes_congr {other : Option String} {c : Decimal} (hrule : rule ∈ comparisons)
    (hparam : IsParam param) (hother : IsParam other) (hm : v.measure = some m)
    (hb : bound? param = some b) (hc : bound? other = some c) (hvalue : c.value = b.value) :
    Passes v rule param ↔ Passes v rule other := by
  obtain ⟨r, hget⟩ := exists_comparison hrule
  obtain ⟨x, hx, -⟩ := exists_measure? hm
  have hunits : c.units = b.units := (units_eq_iff c.units_eq b.units_eq).2 hvalue
  rw [passes_iff_relation hrule hparam hget hx hb, passes_iff_relation hrule hother hget hx hc,
    hunits]

/-- With a measure and a bound the seven rules are those of one order. -/
theorem passes_of_measure (hparam : IsParam param) (hm : v.measure = some m)
    (hb : bound? param = some b) :
    (∃! rule, rule ∈ ["lt", "len", "gt"] ∧ Passes v rule param) ∧
      (∀ rule ∈ ["gte", "min"], Passes v rule param ↔ Passes v "gt" param ∨ Passes v "len" param) ∧
      ∀ rule ∈ ["lte", "max"],
        Passes v rule param ↔ Passes v "lt" param ∨ Passes v "len" param := by
  have hlt := lt_iff hparam hm hb
  have hlen := len_iff hparam hm hb
  have hgt := gt_iff hparam hm hb
  refine ⟨?_, fun rule hrule => ?_, fun rule hrule => ?_⟩
  · simp only [List.mem_cons, List.not_mem_nil, or_false]
    obtain hcase | hcase | hcase := lt_trichotomy m b.value
    · refine ⟨"lt", ⟨.inl rfl, hlt.2 hcase⟩, ?_⟩
      rintro rule ⟨rfl | rfl | rfl, hpass⟩
      · rfl
      · exact absurd (hlen.1 hpass) hcase.ne
      · exact absurd (hgt.1 hpass) hcase.asymm
    · refine ⟨"len", ⟨.inr (.inl rfl), hlen.2 hcase⟩, ?_⟩
      rintro rule ⟨rfl | rfl | rfl, hpass⟩
      · exact absurd hcase (hlt.1 hpass).ne
      · rfl
      · exact absurd hcase (hgt.1 hpass).ne'
    · refine ⟨"gt", ⟨.inr (.inr rfl), hgt.2 hcase⟩, ?_⟩
      rintro rule ⟨rfl | rfl | rfl, hpass⟩
      · exact absurd (hlt.1 hpass) hcase.asymm
      · exact absurd (hlen.1 hpass) hcase.ne'
      · rfl
  · rw [gte_iff hrule hparam hm hb, hgt, hlen, le_iff_lt_or_eq, eq_comm]
  · rw [lte_iff hrule hparam hm hb, hlt, hlen, le_iff_lt_or_eq]

end

/-! ### Rules that cannot compare -/

theorem check_of_uncomparable (hrule : rule ∈ comparisons) (hparam : IsParam param)
    (hv : v ≠ .null) (h : v.measure = none ∨ bound? param = none) :
    builtin.check (ruleText rule param) v = some (RuleItem.report ⟨rule, param.map trim⟩) := by
  obtain ⟨r, hget⟩ := exists_comparison hrule
  rw [check_ruleText hrule hparam hget hv, comparison_eq_false r h, if_neg Bool.false_ne_true]

theorem passes_null (hrule : rule ∈ comparisons) (hparam : IsParam param) :
    Passes .null rule param := by
  have hname : rule ≠ "required" := by
    rintro rfl
    revert hrule
    decide
  rw [Passes, check_of_written (written_ruleText hrule hparam), judge_null_of_ne hname]
  rfl

/-- **The rules that compare agree with one another.**  For a value with a measure and a parameter
that gives a bound they are the relations of one order, that of the numbers, however the bound is
written.  Without a bound, or for a value other than null that has no measure, each of them reports
itself; null passes. -/
theorem comparisons_agree (hparam : IsParam param) (v : Value) :
    (∀ m b, v.measure = some m → bound? param = some b →
      ((Passes v "lt" param ↔ m < b.value) ∧ (Passes v "len" param ↔ m = b.value) ∧
        (Passes v "gt" param ↔ b.value < m)) ∧
      (∃! rule, rule ∈ ["lt", "len", "gt"] ∧ Passes v rule param) ∧
      (∀ rule ∈ ["gte", "min"],
        Passes v rule param ↔ Passes v "gt" param ∨ Passes v "len" param) ∧
      (∀ rule ∈ ["lte", "max"],
        Passes v rule param ↔ Passes v "lt" param ∨ Passes v "len" param) ∧
      ∀ other c, IsParam other → bound? other = some c →
        (c.value ≤ b.value → Passes v "gte" param → Passes v "gte" other) ∧
        (c.value = b.value → ∀ rule ∈ comparisons, Passes v rule param ↔ Passes v rule other)) ∧
    (v ≠ .null → v.measure = none ∨ bound? param = none → ∀ rule ∈ comparisons,
      builtin.check (ruleText rule param) v = some (RuleItem.report ⟨rule, param.map trim⟩)) ∧
    ∀ rule ∈ comparisons, Passes .null rule param := by
  refine ⟨fun m b hm hb => ?_, fun hv h rule hrule => check_of_uncomparable hrule hparam hv h,
    fun rule hrule => passes_null hrule hparam⟩
  obtain ⟨hone, hleast, hmost⟩ := passes_of_measure hparam hm hb
  refine ⟨⟨lt_iff hparam hm hb, len_iff hparam hm hb, gt_iff hparam hm hb⟩, hone, hleast, hmost,
    fun other c hother hc => ⟨fun hle hpass => ?_, fun hvalue rule hrule =>
      passes_congr hrule hparam hother hm hb hc hvalue⟩⟩
  rw [gte_iff (by decide) hother hm hc]
  exact hle.trans ((gte_iff (by decide) hparam hm hb).1 hpass)

/-- Three characters, in six bytes, are held to three written in two ways, and to no number. -/
theorem three_characters_agree :
    let v := Value.text "né€"
    let b : Decimal := ⟨false, 300, 2, by decide, by decide⟩
    let c : Decimal := ⟨false, 30, 1, by decide, by decide⟩
    bound? (some " 3.00 ") = some b ∧ bound? (some "30e-1") = some c ∧ c.value = b.value ∧
      Passes v "len" (some " 3.00 ") ∧
      (∃! rule, rule ∈ ["lt", "len", "gt"] ∧ Passes v rule (some " 3.00 ")) ∧
      (∀ rule ∈ comparisons, Passes v rule (some " 3.00 ") ↔ Passes v rule (some "30e-1")) ∧
      builtin.check "len=three" v = some "len: three" ∧
      Passes .null "len" (some " 3.00 ") := by
  intro v b c
  have hb : bound? (some " 3.00 ") = some b := by decide +kernel
  have hc : bound? (some "30e-1") = some c := by decide +kernel
  have hm : v.measure = some 3 := rfl
  have hvalue : c.value = b.value := (units_eq_iff c.units_eq b.units_eq).1 (by decide)
  have hparam : ∀ p ∈ [" 3.00 ", "30e-1", "three"], IsParam (some p) := by
    unfold IsParam
    decide
  obtain ⟨hmeasured, -, hnull⟩ := comparisons_agree (hparam " 3.00 " (by decide)) v
  obtain ⟨⟨-, hlen, -⟩, hone, -, -, hother⟩ := hmeasured 3 b hm hb
  have hreport := (comparisons_agree (hparam "three" (by decide)) v).2.1 nofun
    (.inr (by decide +kernel)) "len" (by decide)
  have hunits : ((3 * tenTo 28 : Int) : ℚ) = 3 * tenTo 28 := by push_cast; rfl
  have hthree : (3 : ℚ) = b.value := (units_eq_iff hunits b.units_eq).1 (by decide)
  exact ⟨hb, hc, hvalue, hlen.2 hthree, hone,
    (hother _ c (hparam "30e-1" (by decide)) hc).2 hvalue, hreport, hnull "len" (by decide)⟩

end Rulebook

end RecordLayer
