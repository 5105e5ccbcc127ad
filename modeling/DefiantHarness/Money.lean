import DefiantHarness.Foundation.DecimalText
import DefiantHarness.Foundation.Refusal

/-! Validated amounts, and the arithmetic of the default decimal context. -/
namespace DefiantHarness

open Foundation

/-- The exceptions that the control path distinguishes. -/
inductive ErrorKind where
  | value | overflow | budget | approval | operatorIdentity | journal | evidence | integrity
  | grant | tool | harness | storage | crash
deriving DecidableEq, Repr

structure HarnessError where
  kind : ErrorKind
  message : String
deriving DecidableEq, Repr

/-- The context of a thread that never changed it: 28 digits, half-even, overflow trapped. -/
def defaultContext : Context := ⟨28, -999999, 999999, by norm_num⟩

/-- A finite amount that is not negative. -/
def money (value : Decimal) (fieldName : String) : Except HarnessError Decimal := do
  refuseIf (value.lt .zero = true) ⟨.value, fieldName ++ " must not be negative"⟩
  pure value

def moneyText (value : Decimal) : Except HarnessError PlainDecimal := do
  let result ← money value "amount"
  pure result.plain

/-- The canonical text of a hashed amount: every zero is written `0`. -/
def canonicalText (value : Decimal) : PlainDecimal :=
  if value.isZero then Decimal.zero.plain else value.plain

/-- The text with a fixed number of fraction digits, rounded half to even. -/
def fixedText (places : Nat) (value : Decimal) : String :=
  let shift := value.exponent + places
  let scaled := if 0 ≤ shift then value.coefficient * 10 ^ shift.toNat
    else Decimal.divHalfEven value.coefficient (10 ^ (-shift).toNat)
  (if value.negative then "-" else "") ++ toString (scaled / 10 ^ places) ++ "." ++
    String.ofList ((Nat.toDigits 10 (scaled % 10 ^ places)).leftpad places '0')

private def overflowError : HarnessError := ⟨.overflow, "above Emax"⟩

def plus (a b : Decimal) : Except HarnessError Decimal :=
  orRefuse (Decimal.add defaultContext a b) overflowError

def minus (a b : Decimal) : Except HarnessError Decimal :=
  orRefuse (Decimal.sub defaultContext a b) overflowError

/-- `sum(amounts, ZERO)`. -/
def total (amounts : List Decimal) : Except HarnessError Decimal :=
  orRefuse (Decimal.sumFrom defaultContext .zero amounts) overflowError

@[simp] theorem canonicalText_plain (value : Decimal) :
    canonicalText value.plain.decimal = canonicalText value := by
  have same : value.plain.decimal.isZero = value.isZero := by
    rw [Bool.eq_iff_iff, Decimal.isZero_iff, Decimal.isZero_iff, Decimal.plain_value]
  simp [canonicalText, same]

@[simp] theorem money_ok_iff {value result : Decimal} {fieldName : String} :
    money value fieldName = .ok result ↔ value = result ∧ 0 ≤ value.value := by
  simp only [money, refuseIf_bind_ok_iff, Decimal.lt_iff, Decimal.zero_value, pure_eq_ok,
    Except.ok.injEq]
  constructor
  · rintro ⟨sign, rfl⟩
    exact ⟨rfl, not_lt.1 sign⟩
  · rintro ⟨rfl, sign⟩
    exact ⟨not_lt.2 sign, rfl⟩

theorem plus_exact {a b : Decimal} (exact : defaultContext.Representable (a.value + b.value)) :
    ∃ r, plus a b = .ok r ∧ r.value = a.value + b.value := by
  obtain ⟨r, sum, value⟩ := Decimal.add_exact exact
  exact ⟨r, orRefuse_ok_iff.2 sum, value⟩

theorem minus_exact {a b : Decimal} (exact : defaultContext.Representable (a.value - b.value)) :
    ∃ r, minus a b = .ok r ∧ r.value = a.value - b.value := by
  obtain ⟨r, difference, value⟩ := Decimal.add_exact (a := a) (b := b.neg)
    (by simpa [sub_eq_add_neg] using exact)
  exact ⟨r, orRefuse_ok_iff.2 difference, by simpa [sub_eq_add_neg] using value⟩

theorem total_exact (amounts : List Decimal)
    (exact : Decimal.PartialSums defaultContext 0 (amounts.map Decimal.value)) :
    ∃ r, total amounts = .ok r ∧ r.value = (amounts.map Decimal.value).sum := by
  obtain ⟨r, sum, value⟩ := Decimal.sumFrom_exact .zero (by simpa using exact)
  exact ⟨r, orRefuse_ok_iff.2 sum, by simpa using value⟩

end DefiantHarness
