import Mathlib
import Prognosis.Proofs.Grammar.Locality
import Prognosis.Proofs.Scalar.Exact
import Prognosis.Value.Model

/-! Values of polynomials, in arithmetic without rounding. Terms are added up in the order of their
powers until there is no coefficient for the next one: what is declared behind such a gap does not
count.
-/

namespace Prognosis.Model

variable {α : Type} {m : Model α} {gap power : Nat}

-----------------------------------------------------------------------------------------
-- Names of coefficients
-----------------------------------------------------------------------------------------

/-- Name of the coefficient of a power. -/
def coefficientName (power : Nat) : String :=
  "c" ++ Decimal.wholeText power

theorem coefficientName_injective : Function.Injective coefficientName := by
  intro i j same
  have digits : Nat.toDigits 10 i = Nat.toDigits 10 j := by
    simpa [coefficientName, Decimal.wholeText] using congrArg String.toList same
  rw [← Nat.ofDigitChars_ten_toDigits (n := i), digits, Nat.ofDigitChars_ten_toDigits]

/-- The coefficient of a power, where there is one. -/
def coefficient? (m : Model α) (power : Nat) : Option (Expr α) :=
  m.parameter? [coefficientName power]

theorem coefficient?_eq_none_iff
    : m.coefficient? power = none ↔ coefficientName power ∉ m.parameters.map Prod.fst := by
  simp only [coefficient?, parameter?, Option.map_eq_none_iff, List.find?_eq_none, List.mem_map]
  constructor
  · rintro free ⟨⟨name, e⟩, among, rfl⟩
    exact free _ among (by simp)
  · intro free parameter among is
    exact free ⟨parameter, among, by simpa using is⟩

theorem mem_of_coefficient? {e : Expr α} (declared : m.coefficient? power = some e)
    : (coefficientName power, e) ∈ m.parameters := by
  obtain ⟨⟨name, e'⟩, found, rfl⟩ := Option.map_eq_some_iff.mp declared
  obtain rfl : name = coefficientName power := by simpa using List.find?_some found
  exact List.mem_of_find?_eq_some found

/-- The least power without a coefficient. -/
def IsGap (m : Model α) (gap : Nat) : Prop :=
  IsLeast {power | m.coefficient? power = none} gap

/-- There are no more powers before the gap than parameters, as coefficients have names of their
own.
-/
theorem IsGap.le_length (isGap : m.IsGap gap) : gap ≤ m.parameters.length := by
  have distinct : ((List.range gap).map coefficientName).Nodup :=
    List.nodup_range.map coefficientName_injective
  have declared : (List.range gap).map coefficientName ⊆ m.parameters.map Prod.fst := by
    intro name among
    obtain ⟨power, before, rfl⟩ := List.mem_map.mp among
    by_contra missing
    exact (isGap.2 (coefficient?_eq_none_iff.mpr missing)).not_gt (List.mem_range.mp before)
  simpa using (List.subperm_of_subset distinct declared).length_le

theorem exists_isGap (m : Model α) : ∃ gap, m.IsGap gap := by
  have undeclared : ∃ power, m.coefficient? power = none := by
    by_contra all
    have declared (power : Nat)
        : coefficientName power ∈ {name | name ∈ m.parameters.map Prod.fst} := by
      by_contra missing
      exact all ⟨power, coefficient?_eq_none_iff.mpr missing⟩
    exact Set.infinite_of_injective_forall_mem coefficientName_injective declared
      (List.finite_toSet _)
  exact ⟨_, Nat.isLeast_find undeclared⟩

-----------------------------------------------------------------------------------------
-- Terms
-----------------------------------------------------------------------------------------

/-- The terms end at the gap, and no bound behind it cuts them off. -/
theorem polynomial_eq_of_gap [Scalar α] (isGap : m.IsGap gap) {env : Env α} {elapsed total : α}
    {bound bound' : Nat} (reached : power ≤ gap) (room : gap < power + bound)
    (room' : gap < power + bound')
    : m.polynomial env elapsed bound power total = m.polynomial env elapsed bound' power total := by
  induction bound generalizing bound' power total with
  | zero => omega
  | succ bound ih =>
      obtain ⟨bound', rfl⟩ : ∃ more, bound' = more + 1 := ⟨bound' - 1, by omega⟩
      simp only [polynomial]
      cases declared : m.parameter? ["c" ++ Decimal.wholeText power] with
      | none => rfl
      | some e =>
          have before : power ≠ gap := by
            rintro rfl
            cases declared.symm.trans isGap.1
          dsimp only
          cases e.magnitude env with
          | error halt => rfl
          | ok coefficient =>
              cases wholePower elapsed power with
              | error fault => rfl
              | ok factor => exact ih (by omega) (by omega) (by omega)

variable {m : Model ℝ} {env : Env ℝ} {x : Nat → ℝ}

theorem wholePower_real (base : ℝ) (exponent : Nat)
    : wholePower base exponent = .ok (base ^ exponent) := by
  have raised : Scalar.pow base (exponent : ℝ) = base ^ exponent :=
    Real.rpow_natCast base exponent
  simp [wholePower, raised]

/-- The sum grows by one term for each power before the gap. By induction on the bound. -/
theorem polynomial_sum (isGap : m.IsGap gap)
    (values : ∀ power e, m.coefficient? power = some e → e.magnitude env = .ok (x power))
    {elapsed total : ℝ} {bound : Nat} (reached : power ≤ gap) (room : gap < power + bound)
    : m.polynomial env elapsed bound power total
      = .ok (total + ∑ i ∈ Finset.Ico power gap, x i * elapsed ^ i) := by
  induction bound generalizing power total with
  | zero => omega
  | succ bound ih =>
      simp only [polynomial]
      cases declared : m.parameter? ["c" ++ Decimal.wholeText power] with
      | none =>
          obtain rfl : power = gap := reached.antisymm (isGap.2 declared)
          simp
      | some e =>
          have before : power < gap := by
            refine reached.lt_of_ne ?_
            rintro rfl
            cases declared.symm.trans isGap.1
          simp only [values power e declared, wholePower_real]
          rw [ih before (by omega), Finset.sum_eq_sum_Ico_succ_bot before, add_assoc]

/-- Where no power has a coefficient from some count on, the sum over all powers is one over that
many.
-/
theorem sum_all_eq {count : Nat} (none : ∀ power ≥ count, x power = 0) (elapsed : ℝ)
    : ∑ᶠ power, x power * elapsed ^ power
      = ∑ power ∈ Finset.range count, x power * elapsed ^ power := by
  refine finsum_eq_sum_of_support_subset _ fun power term => ?_
  by_contra behind
  have ge : count ≤ power := by simpa using behind
  exact term (by simp [none power ge])

-----------------------------------------------------------------------------------------
-- Polynomials of sources
-----------------------------------------------------------------------------------------

variable {ts rest : List (Token ℝ)} {positional : List (Expr ℝ)}
  {named : List (String × Expr ℝ)}

/-- A polynomial is read from a call, whose positional arguments are its first coefficients. -/
theorem reads_polynomial (reads : (Grammar.model ts).Reads m rest) (family : m.kind = .polynomial)
    : ∃ positional named place,
      (Grammar.expression ts).Reads (.call "polynomial" positional named place) rest
        ∧ m.parameters = Grammar.coefficients positional ++ named := by
  have taken : Grammar.takes Grammar.model ts m rest := Grammar.Attempt.reads_iff_bare.mp reads
  rw [Grammar.takes_model] at taken
  obtain ⟨e, called, chosen⟩ := taken
  cases e with
  | call function positional named place =>
      simp only [Grammar.model?, Option.bind_eq_some_iff, Option.map_eq_some_iff,
        Option.filter_eq_some_iff] at chosen
      obtain ⟨_, -, kind, ⟨known, -⟩, rfl⟩ := chosen
      have same : kind.name = function := by simpa using List.find?_some known
      subst same
      obtain rfl : kind = .polynomial := family
      exact ⟨positional, named, place, Grammar.Attempt.reads_iff_bare.mpr called, rfl⟩
  | number | percentage | currency | text | boolean | name | binary | unary => cases chosen

/-- A call of the family is read as a polynomial. -/
theorem polynomial_reads {t : Token ℝ} {place : Option Span}
    (called : Grammar.IsWhole (t :: ts) (.call "polynomial" positional named place))
    : (Grammar.model (t :: ts)).Reads
        ⟨.polynomial, Grammar.coefficients positional ++ named, t.span⟩ [] := by
  rw [Grammar.Attempt.reads_iff_bare]
  change Grammar.takes Grammar.model _ _ _
  rw [Grammar.takes_model]
  have known : ModelKind.ofName? "polynomial" = some .polynomial := by decide
  refine ⟨_, Grammar.Attempt.reads_iff_bare.mp called, ?_⟩
  simp [Grammar.model?, Grammar.here, known]

theorem mem_coefficients {e : Expr ℝ}
    : (coefficientName power, e) ∈ Grammar.coefficients positional
      ↔ positional[power]? = some e := by
  simp only [Grammar.coefficients, List.mem_map, Prod.exists, Prod.mk.injEq]
  constructor
  · rintro ⟨e', index, among, name, rfl⟩
    rw [← coefficientName_injective name]
    exact List.mk_mem_zipIdx_iff_getElem?.mp among
  · exact fun found => ⟨e, power, List.mk_mem_zipIdx_iff_getElem?.mpr found, rfl, rfl⟩

/-- A coefficient is missing if it is neither among the positional ones nor declared by name. -/
theorem coefficient?_eq_none_iff_of_parameters
    (parameters : m.parameters = Grammar.coefficients positional ++ named)
    : m.coefficient? power = none
      ↔ positional.length ≤ power ∧ coefficientName power ∉ named.map Prod.fst := by
  have first : coefficientName power ∈ (Grammar.coefficients positional).map Prod.fst
      ↔ power < positional.length := by
    simp [mem_coefficients, List.getElem?_eq_some_iff]
  rw [coefficient?_eq_none_iff, parameters, List.map_append, List.mem_append, not_or, first, not_lt]

/-- Values of coefficients by their powers. The positional ones come first, and what is not declared
counts as zero.
-/
structure AreValues (positional : List (Expr ℝ)) (named : List (String × Expr ℝ)) (env : Env ℝ)
    (x : Nat → ℝ) : Prop where
  byPosition : ∀ power (e : Expr ℝ), positional[power]? = some e → e.magnitude env = .ok (x power)
  byName : ∀ power (e : Expr ℝ), (coefficientName power, e) ∈ named → e.magnitude env = .ok (x power)
  undeclared : ∀ power, positional.length ≤ power → coefficientName power ∉ named.map Prod.fst →
    x power = 0

/-- The value of a polynomial is the sum over its coefficients up to the gap: the least power whose
coefficient is neither among the positional ones nor declared by name. The count of terms comes to
an end there, whatever bounds it. If no coefficient is declared behind the gap the sum is the one
over all coefficients; otherwise the terms behind it are lost (`term_behind_gap_lost`).

Witness: `terms_add_up_in_any_order`
-/
theorem polynomial_adds_up (reads : (Grammar.model ts).Reads m rest)
    (family : m.kind = .polynomial)
    : ∃ positional named place gap,
      (Grammar.expression ts).Reads (.call "polynomial" positional named place) rest
      ∧ IsLeast {power | positional.length ≤ power ∧ coefficientName power ∉ named.map Prod.fst} gap
      ∧ ∀ (env : Env ℝ) (time origin : ℝ),
        (∀ bound > m.parameters.length,
          m.polynomial env (time - origin) bound 0 Scalar.zero = m.value env time origin)
        ∧ ∀ x, AreValues positional named env x →
            m.value env time origin
              = .ok (∑ power ∈ Finset.range gap, x power * (time - origin) ^ power)
            ∧ ((∀ power ≥ gap, coefficientName power ∉ named.map Prod.fst) →
                m.value env time origin = .ok (∑ᶠ power, x power * (time - origin) ^ power)) := by
  obtain ⟨positional, named, place, called, parameters⟩ := reads_polynomial reads family
  obtain ⟨gap, isGap⟩ := m.exists_isGap
  have short : gap ≤ m.parameters.length := isGap.le_length
  have least : IsLeast
      {power | positional.length ≤ power ∧ coefficientName power ∉ named.map Prod.fst} gap := by
    simpa only [IsGap, coefficient?_eq_none_iff_of_parameters parameters] using isGap
  have value_eq (env : Env ℝ) (time origin : ℝ) : m.value env time origin
      = m.polynomial env (time - origin) (m.parameters.length + 1) 0 Scalar.zero := by
    simp only [value, family]
  refine ⟨positional, named, place, gap, called, least, fun env time origin => ⟨?_, ?_⟩⟩
  · intro bound room
    rw [value_eq]
    exact polynomial_eq_of_gap isGap gap.zero_le (by omega) (by omega)
  · intro x areValues
    have values : ∀ power e, m.coefficient? power = some e → e.magnitude env = .ok (x power) := by
      intro power e declared
      have among := mem_of_coefficient? declared
      rw [parameters, List.mem_append, mem_coefficients] at among
      exact among.elim (areValues.byPosition power e) (areValues.byName power e)
    have sum : m.value env time origin
        = .ok (∑ power ∈ Finset.range gap, x power * (time - origin) ^ power) := by
      rw [value_eq, polynomial_sum isGap values gap.zero_le (by omega), Scalar.zero_real, zero_add,
        Finset.range_eq_Ico]
    refine ⟨sum, fun none => ?_⟩
    rw [sum, sum_all_eq fun power behind =>
      areValues.undeclared power (least.1.1.trans behind) (none power behind)]

section Sources

open Grammar

/-- A number is derived from its token. -/
private theorem amount_derives (x : ℝ) (text : String) (span : Span)
    : Derives (.binary .disjunction) [⟨.number x, text, span⟩] (.number x (some span)) :=
  .weaken (.literal rfl) (Stratum.strength_le _)

/-- A number with a name is derived as a named argument in front of others. -/
private theorem coefficient_derives (name text : String) (x : ℝ) (place sign span : Span)
    {more : List (Token ℝ)} (others : DerivesMore more [] named)
    : DerivesArguments
        (⟨.word, name, place⟩ :: ⟨.sign .assign, "=", sign⟩ :: ⟨.number x, text, span⟩ :: more)
        [] ((name, .number x (some span)) :: named) :=
  .named rfl (Or.inl rfl) (amount_derives x text span) others

/-- A number with the name of a power is the coefficient of that power. -/
private theorem coefficient_value (x : Nat → ℝ) (of : Nat) {name : String} {e : Expr ℝ}
    {span : Span} (is : coefficientName of = name)
    (among : coefficientName power = name ∧ e = .number (x of) (some span))
    : e.magnitude [] = .ok (x power) := by
  obtain ⟨same, rfl⟩ := among
  rw [coefficientName_injective (same.trans is.symm)]
  rfl

/-- Tokens of "polynomial(1, c2=3, c1=2)". Two years from the start it is 1 + 2 * 2 + 3 * 4. -/
theorem terms_add_up_in_any_order
    : let ts : List (Token ℝ) :=
        [⟨.word, "polynomial", ⟨1, 1⟩⟩, ⟨.sign .lparen, "(", ⟨1, 11⟩⟩, ⟨.number 1, "1", ⟨1, 12⟩⟩,
          ⟨.sign .comma, ",", ⟨1, 13⟩⟩, ⟨.word, "c2", ⟨1, 15⟩⟩, ⟨.sign .assign, "=", ⟨1, 17⟩⟩,
          ⟨.number 3, "3", ⟨1, 18⟩⟩, ⟨.sign .comma, ",", ⟨1, 19⟩⟩, ⟨.word, "c1", ⟨1, 21⟩⟩,
          ⟨.sign .assign, "=", ⟨1, 23⟩⟩, ⟨.number 2, "2", ⟨1, 24⟩⟩, ⟨.sign .rparen, ")", ⟨1, 25⟩⟩]
      ∃ m, (model ts).Reads m [] ∧ m.kind = .polynomial ∧ m.value [] 2022 2020 = .ok 17 := by
  intro ts
  have unnamed : ¬BeginsNamed [(⟨.number 1, "1", ⟨1, 12⟩⟩ : Token ℝ)] := by
    rintro ⟨_, _, _, same, -⟩
    cases same
  have given : DerivesArguments (ts.extract 2 11) [.number 1 (some ⟨1, 12⟩)]
      [("c2", .number 3 (some ⟨1, 18⟩)), ("c1", .number 2 (some ⟨1, 24⟩))] :=
    .positional unnamed (amount_derives 1 "1" ⟨1, 12⟩) (.comma rfl
      (coefficient_derives "c2" "3" 3 ⟨1, 15⟩ ⟨1, 17⟩ ⟨1, 18⟩ (.comma rfl
        (coefficient_derives "c1" "2" 2 ⟨1, 21⟩ ⟨1, 23⟩ ⟨1, 24⟩ .none))))
  have derived : Derives .primary ts _ := .call ⟨rfl, by decide⟩ rfl given rfl
  have reads := polynomial_reads derived.isWhole
  refine ⟨_, reads, rfl, ?_⟩
  obtain ⟨positional, named, place, gap, called, least, adds⟩ := polynomial_adds_up reads rfl
  cases (called.unique derived.isWhole).1
  have last : IsLeast {power | 1 ≤ power ∧ coefficientName power ∉ ["c2", "c1"]} 3 := by
    refine ⟨⟨by decide, by decide⟩, ?_⟩
    rintro power ⟨ge, missing⟩
    by_contra before
    obtain rfl | rfl : power = 1 ∨ power = 2 := by omega
    · exact missing (by decide)
    · exact missing (by decide)
  obtain rfl : gap = 3 := least.unique last
  let x : Nat → ℝ := fun power => [1, 2, 3].getD power 0
  have values : AreValues [.number 1 (some ⟨1, 12⟩)]
      [("c2", .number 3 (some ⟨1, 18⟩)), ("c1", .number 2 (some ⟨1, 24⟩))] [] x := {
    byPosition := by
      intro power e found
      cases power with
      | zero => cases found; rfl
      | succ power => cases found
    byName := by
      intro power e among
      simp only [List.mem_cons, Prod.mk.injEq, List.not_mem_nil, or_false] at among
      rcases among with among | among
      · exact coefficient_value x 2 (by decide) among
      · exact coefficient_value x 1 (by decide) among
    undeclared := by
      intro power ge missing
      have late := last.2 ⟨ge, by simpa using missing⟩
      exact List.getD_eq_default _ _ late }
  have sum := ((adds [] 2022 2020).2 _ values).1
  rw [sum]
  norm_num [Finset.sum_range_succ, x]

/-- Tokens of "polynomial(c0=1, c2=3)". Two years from the start it is one: the term of the second
power is lost, with which it would be 13.
-/
theorem term_behind_gap_lost
    : let ts : List (Token ℝ) :=
        [⟨.word, "polynomial", ⟨1, 1⟩⟩, ⟨.sign .lparen, "(", ⟨1, 11⟩⟩, ⟨.word, "c0", ⟨1, 12⟩⟩,
          ⟨.sign .assign, "=", ⟨1, 14⟩⟩, ⟨.number 1, "1", ⟨1, 15⟩⟩, ⟨.sign .comma, ",", ⟨1, 16⟩⟩,
          ⟨.word, "c2", ⟨1, 18⟩⟩, ⟨.sign .assign, "=", ⟨1, 20⟩⟩, ⟨.number 3, "3", ⟨1, 21⟩⟩,
          ⟨.sign .rparen, ")", ⟨1, 22⟩⟩]
      let named : List (String × Expr ℝ) :=
        [("c0", .number 1 (some ⟨1, 15⟩)), ("c2", .number 3 (some ⟨1, 21⟩))]
      let x : Nat → ℝ := fun power => [1, 0, 3].getD power 0
      (expression ts).Reads (.call "polynomial" [] named (some ⟨1, 1⟩)) []
        ∧ (named.map Prod.fst).Nodup ∧ AreValues [] named [] x
        ∧ ∑ᶠ power, x power * (2022 - 2020) ^ power = 13
        ∧ ∃ m, (model ts).Reads m [] ∧ m.kind = .polynomial ∧ m.value [] 2022 2020 = .ok 1 := by
  intro ts named x
  have given : DerivesArguments (ts.extract 2 9) [] named :=
    coefficient_derives "c0" "1" 1 ⟨1, 12⟩ ⟨1, 14⟩ ⟨1, 15⟩
      (.comma rfl (coefficient_derives "c2" "3" 3 ⟨1, 18⟩ ⟨1, 20⟩ ⟨1, 21⟩ .none))
  have derived : Derives .primary ts _ := .call ⟨rfl, by decide⟩ rfl given rfl
  have behind (power : Nat) (ge : power ≥ 3) : x power = 0 := List.getD_eq_default _ _ ge
  have values : AreValues [] named [] x := {
    byPosition := nofun
    byName := by
      intro power e among
      simp only [named, List.mem_cons, Prod.mk.injEq, List.not_mem_nil, or_false] at among
      rcases among with among | among
      · exact coefficient_value x 0 (by decide) among
      · exact coefficient_value x 2 (by decide) among
    undeclared := by
      intro power _ missing
      match power with
      | 0 | 2 => exact absurd (by decide) missing
      | 1 => rfl
      | power + 3 => exact behind _ (by omega)
  }
  let m : Model ℝ := ⟨.polynomial, named, ⟨1, 1⟩⟩
  refine ⟨derived.isWhole, by decide, values, ?_, m, polynomial_reads derived.isWhole, rfl, ?_⟩
  · rw [sum_all_eq behind]
    norm_num [Finset.sum_range_succ, x]
  · have isGap : m.IsGap 1 := by
      refine ⟨rfl, fun power missing => Nat.one_le_iff_ne_zero.mpr ?_⟩
      rintro rfl
      cases missing
    have coefficients : ∀ power e, m.coefficient? power = some e →
        e.magnitude [] = .ok (x power) :=
      fun power e declared => values.byName power e (mem_of_coefficient? declared)
    have sum : m.value [] 2022 2020
        = .ok (Scalar.zero + ∑ i ∈ Finset.Ico 0 1, x i * (2022 - 2020) ^ i) :=
      polynomial_sum isGap coefficients (Nat.zero_le 1) (by decide)
    rw [sum]
    norm_num [x]

end Sources

end Prognosis.Model
