import DefiantHarness.Foundation.Digits
import DefiantHarness.Foundation.JsonForm
import DefiantHarness.Money

/-! The Python values that are hashed, and the canonical JSON text that their hash is taken of. -/
namespace DefiantHarness

open Foundation

/-- A value: what the encoder writes as JSON, amounts, enumeration members, and the rest. -/
inductive Value where
  | null
  | bool (value : Bool)
  | int (value : Int)
  | float (value : Binary64)
  /-- A number that is not finite. -/
  | nonFinite
  | str (text : Points)
  | decimal (value : Decimal)
  | list (items : List Value)
  | tuple (items : List Value)
  /-- Entries in insertion order. -/
  | dict (entries : List (Value × Value))
  /-- A member of an enumeration; a mixed one is itself a string or number like its value. -/
  | member (mixed : Bool) (value : Value)
  /-- An object of any other type. -/
  | foreign

abbrev Entry := Value × Value

/-- A ceiling that was exceeded, or (without one) data that is not canonical. -/
structure HashFault where
  limitEnforced : Option String
  message : String
deriving DecidableEq, Repr

namespace Value

/-- Induction over a value with its items, keys and entries. -/
@[elab_as_elim]
theorem induction_on {motive : Value → Prop} (null : motive .null) (bool : ∀ b, motive (.bool b))
    (int : ∀ i, motive (.int i)) (float : ∀ x, motive (.float x)) (nonFinite : motive .nonFinite)
    (str : ∀ s, motive (.str s)) (decimal : ∀ d, motive (.decimal d))
    (list : ∀ items, (∀ v ∈ items, motive v) → motive (.list items))
    (tuple : ∀ items, (∀ v ∈ items, motive v) → motive (.tuple items))
    (dict : ∀ entries, (∀ e ∈ entries, motive e.1 ∧ motive e.2) → motive (.dict entries))
    (member : ∀ mixed v, motive v → motive (.member mixed v)) (foreign : motive .foreign)
    (v : Value) : motive v :=
  @Value.rec motive (fun items => ∀ v ∈ items, motive v)
    (fun entries => ∀ e ∈ entries, motive e.1 ∧ motive e.2) (fun e => motive e.1 ∧ motive e.2)
    null bool int float nonFinite str decimal list tuple dict member foreign
    (by simp) (fun _ _ head tail => List.forall_mem_cons.2 ⟨head, tail⟩)
    (by simp) (fun _ _ head tail => List.forall_mem_cons.2 ⟨head, tail⟩)
    (fun _ _ key value => ⟨key, value⟩) v

end Value

/-- A dictionary key that JSON has a spelling for. -/
inductive Key where
  | null
  | bool (value : Bool)
  | int (value : Int)
  | float (value : Binary64)
  | str (text : Points)
deriving DecidableEq

inductive KeyFamily where
  | string | number | null
deriving DecidableEq, Repr

namespace Key

def family : Key → KeyFamily
  | .null => .null
  | .str _ => .string
  | .bool _ => .number
  | .int _ => .number
  | .float _ => .number

/-- The number that a key compares as. -/
def amount : Key → ℚ
  | .bool b => if b then 1 else 0
  | .int i => i
  | .float x => if x.negative then -x.magnitude else x.magnitude
  | .null => 0
  | .str _ => 0

/-- The order that sorting entries uses inside one family. -/
def le : Key → Key → Bool
  | .str s, .str t => s ≤ t
  | a, b => a.amount ≤ b.amount

/-- Python's equality of keys: `1`, `1.0` and `True` are one key. -/
def same : Key → Key → Bool
  | .str s, .str t => s == t
  | .null, .null => true
  | a, b => a.family == .number && b.family == .number && a.amount == b.amount

/-- The characters of a key that is not a string. -/
def chars : Key → List Char
  | .null => ['n', 'u', 'l', 'l']
  | .bool true => ['t', 'r', 'u', 'e']
  | .bool false => ['f', 'a', 'l', 's', 'e']
  | .int i => (Numeral.ofInt i).chars
  | .float x => x.numeral.chars
  | .str _ => []

/-- The JSON name that a key is written as. -/
def name : Key → Points
  | .str s => s
  | k => k.chars.map CodePoint.ofChar

end Key

/-- One family for all keys: keys of two families cannot be sorted. -/
def oneFamily : List Key → Bool
  | [] => true
  | k :: ks => ks.all (·.family == k.family)

def byKey (a b : Key × Data) : Prop := a.1.le b.1 = true

instance : DecidableRel byKey := fun a b => inferInstanceAs (Decidable (a.1.le b.1 = true))

def notSerializable : HashFault := ⟨none, "not JSON serializable"⟩

/-- `int.__repr__` refuses more digits than this. -/
def maxStrDigits : Nat := 4300

def numberFault (limit : Nat) : HashFault :=
  ⟨some "action_hash_number_characters",
    "action hash canonical number exceeds maximum of " ++ toString limit ++ " characters"⟩

/-- Any other error of the money module. -/
def ofHarness (result : Except HarnessError α) : Except HashFault α :=
  result.mapError fun e => ⟨none, e.message⟩

/-- The digits of an amount, how many to keep, and the exponent of the last one kept. -/
def canonicalMoneyComponents (limit : Nat) (value : Decimal) :
    Except HashFault (List Char × Nat × Int) := do
  let digits := Nat.toDigits 10 value.coefficient
  refuseIf (limit < digits.length) (numberFault limit)
  let removedZeros := min (-value.exponent).toNat (trailingZeros digits)
  if 0 ≤ value.exponent then pure (digits, digits.length, value.exponent)
  else pure (digits, digits.length - removedZeros, value.exponent + removedZeros)

def canonicalMoneyTextLength (retainedDigits : Nat) (exponent : Int) : Int :=
  if 0 ≤ exponent then retainedDigits + exponent
  else if retainedDigits ≤ -exponent then 2 + -exponent
  else retainedDigits + 1

/-- The canonical text of an amount, built under a ceiling on its characters. -/
def boundedMoneyText (limit : Nat) (value : Decimal) : Except HashFault (List Char) := do
  let result ← ofHarness (money value "amount")
  if result.isZero then pure ['0']
  else do
    let (digits, retainedDigits, exponent) ← canonicalMoneyComponents limit result
    -- the length is checked before a single zero is written
    refuseIf ((limit : Int) < canonicalMoneyTextLength retainedDigits exponent) (numberFault limit)
    let coefficient := digits.take retainedDigits
    let fractionalDigits := (-exponent).toNat
    if 0 ≤ exponent then pure (coefficient ++ List.replicate exponent.toNat '0')
    else if retainedDigits ≤ fractionalDigits then
      pure ('0' :: '.' :: List.replicate (fractionalDigits - retainedDigits) '0' ++ coefficient)
    else
      let splitAt := retainedDigits - fractionalDigits
      pure (coefficient.take splitAt ++ '.' :: coefficient.drop splitAt)

/-- Text of the ASCII characters. -/
def ofChars (cs : List Char) : Points := cs.map CodePoint.ofChar

def maxActionHashNumberCharacters : Nat := 1024

/-- What an encoder does with a value that JSON has no form for. -/
inductive Fallback where
  | refuse | actionHashDefault
deriving DecidableEq, Repr

namespace Value

/-- The key that the encoder writes; a mixed member counts as its value. -/
def key? : Value → Option Key
  | .null => some .null
  | .bool b => some (.bool b)
  | .int i => if maxStrDigits < (Nat.toDigits 10 i.natAbs).length then none else some (.int i)
  | .float x => some (.float x)
  | .str s => some (.str s)
  | .member true v => v.key?
  | _ => none

mutual

/-- `json` encoding with sorted keys: the document in the order it is written. -/
def dumps (fallback : Fallback) : Value → Except HashFault Data
  | .null => pure .null
  | .bool b => pure (.bool b)
  -- Python refuses to print an integer of more than `maxStrDigits` digits
  | .int i => do
    refuseIf (maxStrDigits < (Nat.toDigits 10 i.natAbs).length) notSerializable
    pure (.int i)
  | .float x => pure (.float x)
  | .nonFinite => throw notSerializable
  | .str s => pure (.str s)
  | .decimal d =>
    match fallback with
    | .refuse => throw notSerializable
    | .actionHashDefault =>
      (boundedMoneyText maxActionHashNumberCharacters d).map fun text => .str (ofChars text)
  | .list items => (dumpsItems fallback items).map .arr
  | .tuple items => (dumpsItems fallback items).map .arr
  | .dict entries => do
    let fields ← dumpsEntries fallback entries
    refuseIf (oneFamily (fields.map (·.1)) = false) notSerializable
    pure (.obj ((fields.insertionSort byKey).map fun (k, x) => (k.name, x)))
  -- a text enumeration is a `str` to the encoder; any other member goes to `default`
  | .member true v => dumps fallback v
  | .member false v =>
    match fallback with
    | .refuse => throw notSerializable
    | .actionHashDefault => dumps fallback v
  | .foreign => throw notSerializable

def dumpsItems (fallback : Fallback) : List Value → Except HashFault (List Data)
  | [] => pure []
  | v :: vs => do
    let x ← dumps fallback v
    let xs ← dumpsItems fallback vs
    pure (x :: xs)

def dumpsEntries (fallback : Fallback) : List Entry → Except HashFault (List (Key × Data))
  | [] => pure []
  | (k, v) :: es => do
    let key ← orRefuse k.key? notSerializable
    let x ← dumps fallback v
    let fields ← dumpsEntries fallback es
    pure ((key, x) :: fields)

end

mutual

/-- Tuples become lists, members their values and amounts their text; keys stay. -/
def enumSafe : Value → Except HashFault Value
  | .dict entries => (enumSafeEntries entries).map .dict
  | .list items => (enumSafeItems items).map .list
  | .tuple items => (enumSafeItems items).map .list
  -- a member's content is not looked into
  | .member _ v => pure v
  | .decimal d => (ofHarness (moneyText d)).map fun text => .str (Points.ofString text.text)
  | .null => pure .null
  | .bool b => pure (.bool b)
  | .int i => pure (.int i)
  | .float x => pure (.float x)
  | .nonFinite => pure .nonFinite
  | .str s => pure (.str s)
  | .foreign => pure .foreign

def enumSafeItems : List Value → Except HashFault (List Value)
  | [] => pure []
  | v :: vs => do
    let v ← enumSafe v
    let vs ← enumSafeItems vs
    pure (v :: vs)

def enumSafeEntries : List Entry → Except HashFault (List Entry)
  | [] => pure []
  | (k, v) :: es => do
    let v ← enumSafe v
    let es ← enumSafeEntries es
    pure ((k, v) :: es)

end

mutual

/-- The document of an accepted value, given the texts of its amounts. -/
def written (text : Decimal → PlainDecimal) : Value → Data
  | .null => .null
  | .bool b => .bool b
  | .int i => .int i
  | .float x => .float x
  | .nonFinite => .null
  | .str s => .str s
  | .decimal d => .str (ofChars (text d).chars)
  | .list items => .arr (writtenItems text items)
  | .tuple items => .arr (writtenItems text items)
  | .dict entries =>
    .obj (((writtenEntries text entries).insertionSort byKey).map fun (k, x) => (k.name, x))
  | .member _ v => written text v
  | .foreign => .null

def writtenItems (text : Decimal → PlainDecimal) : List Value → List Data
  | [] => []
  | v :: vs => written text v :: writtenItems text vs

def writtenEntries (text : Decimal → PlainDecimal) : List Entry → List (Key × Data)
  | [] => []
  | (k, v) :: es => (k.key?.getD .null, written text v) :: writtenEntries text es

end

end Value

/-- Deterministic JSON encoding used for every hash in the system. -/
def canonicalJson (v : Value) : Except HashFault (List Char) := do
  let safe ← v.enumSafe
  let document ← safe.dumps .refuse
  pure (document.render Layout.compact 0)

/-- A hash of texts. -/
abbrev TextHash := List Char → String

def sha256Of (sha : TextHash) (v : Value) : Except HashFault String := do
  let text ← canonicalJson v
  pure ("sha256:" ++ sha text)

private theorem plain_chars_of_whole {d : Decimal} (positive : 0 < d.coefficient)
    (sign : d.negative = false) (whole : 0 ≤ d.exponent) :
    d.plain.chars = Nat.toDigits 10 d.coefficient ++ List.replicate d.exponent.toNat '0' := by
  have none : (-d.exponent).toNat = 0 := by omega
  simp [PlainDecimal.chars, PlainDecimal.fractionDigits, Decimal.plain, none, Decimal.trim, sign,
    toDigits_mul_pow positive]

private theorem plain_chars_of_fraction {d : Decimal} (positive : 0 < d.coefficient)
    (sign : d.negative = false) (fraction : d.exponent < 0) :
    let digits := Nat.toDigits 10 d.coefficient
    let removed := min (-d.exponent).toNat (trailingZeros digits)
    let kept := digits.take (digits.length - removed)
    let places := (-d.exponent).toNat - removed
    d.plain.chars = if places = 0 then kept
      else if kept.length ≤ places then '0' :: '.' :: List.replicate (places - kept.length) '0' ++ kept
      else kept.take (kept.length - places) ++ '.' :: kept.drop (kept.length - places) := by
  obtain ⟨digits, places⟩ := trim_digits positive (-d.exponent).toNat
  have shape : d.plain.chars = let parts := Decimal.trim d.coefficient (-d.exponent).toNat
      Nat.toDigits 10 (parts.1 / 10 ^ parts.2) ++
        if parts.2 = 0 then [] else '.' :: (Nat.toDigits 10 (parts.1 % 10 ^ parts.2)).leftpad parts.2 '0' := by
    have none : d.exponent.toNat = 0 := by omega
    simp [PlainDecimal.chars, PlainDecimal.fractionDigits, Decimal.plain, none, sign]
  simp only at digits places shape ⊢
  rw [shape, ← digits, ← places]
  set c := (Decimal.trim d.coefficient (-d.exponent).toNat).1
  set p := (Decimal.trim d.coefficient (-d.exponent).toNat).2
  -- the trailing zeros may have eaten the whole fraction: then no point is written
  by_cases whole : p = 0
  · simp [whole]
  have more := Nat.pos_of_ne_zero whole
  rw [if_neg whole, if_neg whole]
  have short_iff := Nat.length_toDigits_le_iff (b := 10) (n := c) (by norm_num) more
  -- the kept digits lie after the point when there are no more of them than places
  by_cases short : (Nat.toDigits 10 c).length ≤ p
  · have below := short_iff.1 short
    rw [if_pos short, Nat.div_eq_of_lt below, Nat.mod_eq_of_lt below, Nat.toDigits_zero]
    rfl
  · have large : 10 ^ p ≤ c := not_lt.1 fun below => short (short_iff.2 below)
    have split := toDigits_split more large
    have length := toDigits_leftpad_length (Nat.mod_lt c (show 0 < 10 ^ p by positivity)) more
    have front : (Nat.toDigits 10 c).length - p = (Nat.toDigits 10 (c / 10 ^ p)).length := by
      rw [split, List.length_append, length, Nat.add_sub_cancel]
    rw [if_neg short, front, split, List.take_left, List.drop_left]

private theorem trailingZeros_le (ds : List Char) : trailingZeros ds ≤ ds.length := by
  have := (List.takeWhile_prefix (· == '0') (l := ds.reverse)).length_le
  rwa [List.length_reverse] at this

/-- The text that the bounded construction builds from its components. -/
private theorem boundedMoneyText_nonzero {limit : Nat} {d : Decimal} (positive : 0 < d.coefficient)
    (sign : d.negative = false) {cs : List Char} :
    (do
      let (digits, retainedDigits, exponent) ← canonicalMoneyComponents limit d
      refuseIf ((limit : Int) < canonicalMoneyTextLength retainedDigits exponent) (numberFault limit)
      let coefficient := digits.take retainedDigits
      let fractionalDigits := (-exponent).toNat
      if 0 ≤ exponent then pure (coefficient ++ List.replicate exponent.toNat '0')
      else if retainedDigits ≤ fractionalDigits then
        pure ('0' :: '.' :: List.replicate (fractionalDigits - retainedDigits) '0' ++ coefficient)
      else
        let splitAt := retainedDigits - fractionalDigits
        pure (coefficient.take splitAt ++ '.' :: coefficient.drop splitAt)) = Except.ok cs ↔
      cs = d.plain.chars ∧ (Nat.toDigits 10 d.coefficient).length ≤ limit ∧ cs.length ≤ limit := by
  set digits := Nat.toDigits 10 d.coefficient with digitsEq
  -- a whole number ends in zeros that the source never writes before it has checked the length
  by_cases whole : 0 ≤ d.exponent
  · have text := plain_chars_of_whole positive sign whole
    rw [← digitsEq] at text
    simp only [canonicalMoneyComponents, if_pos whole, bind_assoc, refuseIf_bind_ok_iff, pure_bind,
      List.take_length, canonicalMoneyTextLength, ← digitsEq, ← text, pure_ok_iff]
    have length : (d.plain.chars.length : Int) = digits.length + d.exponent := by
      rw [text, List.length_append, List.length_replicate]
      omega
    rw [← length]
    constructor
    · rintro ⟨narrow, short, rfl⟩
      exact ⟨rfl, by omega, by omega⟩
    · rintro ⟨rfl, narrow, short⟩
      exact ⟨by omega, by omega, rfl⟩
  · have text := plain_chars_of_fraction positive sign (not_le.1 whole)
    simp only [canonicalMoneyComponents, if_neg whole, bind_assoc, refuseIf_bind_ok_iff, pure_bind,
      ← digitsEq] at text ⊢
    set removed := min (-d.exponent).toNat (trailingZeros digits) with removedEq
    have cut : removed ≤ digits.length := (min_le_right _ _).trans (trailingZeros_le digits)
    have exponent : d.exponent + removed = -(((-d.exponent).toNat - removed : Nat) : Int) := by omega
    set places := (-d.exponent).toNat - removed with placesEq
    have kept : (digits.take (digits.length - removed)).length = digits.length - removed := by
      rw [List.length_take]
      omega
    rw [exponent]
    simp only [canonicalMoneyTextLength, neg_neg, Int.toNat_natCast]
    have length := congrArg List.length text
    -- every fractional digit was a trailing zero: the exponent has become zero
    by_cases integer : places = 0
    · rw [if_pos integer] at text length
      rw [kept] at length
      simp only [integer, Nat.cast_zero, neg_zero, le_refl, if_true, Int.toNat_zero,
        List.replicate_zero, List.append_nil, add_zero, ← text, pure_ok_iff]
      constructor
      · rintro ⟨narrow, short, rfl⟩
        exact ⟨rfl, by omega, by omega⟩
      · rintro ⟨rfl, narrow, short⟩
        exact ⟨by omega, by omega, rfl⟩
    · have below : ¬ (0 : Int) ≤ -(places : Int) := by omega
      rw [if_neg integer, kept] at text length
      simp only [if_neg below]
      by_cases small : digits.length - removed ≤ places
      · have small' : ((digits.length - removed : Nat) : Int) ≤ places := by exact_mod_cast small
        rw [if_pos small] at text length
        simp only [if_pos small, if_pos small', ← text, pure_ok_iff]
        simp only [List.length_append, List.length_cons, List.length_replicate, kept] at length
        constructor
        · rintro ⟨narrow, short, rfl⟩
          exact ⟨rfl, by omega, by omega⟩
        · rintro ⟨rfl, narrow, short⟩
          exact ⟨by omega, by omega, rfl⟩
      · have small' : ¬ ((digits.length - removed : Nat) : Int) ≤ places := by exact_mod_cast small
        rw [if_neg small] at text length
        simp only [if_neg small, if_neg small', ← text, pure_ok_iff]
        simp only [List.length_append, List.length_cons, List.length_take, List.length_drop] at length
        constructor
        · rintro ⟨narrow, short, rfl⟩
          exact ⟨rfl, by omega, by omega⟩
        · rintro ⟨rfl, narrow, short⟩
          exact ⟨by omega, by omega, rfl⟩

/-- The bounded text is the canonical text, under its ceiling. -/
theorem boundedMoneyText_ok_iff {limit : Nat} {d : Decimal} {cs : List Char} :
    boundedMoneyText limit d = .ok cs ↔ 0 ≤ d.value ∧ cs = (canonicalText d).chars ∧
      (d.isZero = true ∨ ((Nat.toDigits 10 d.coefficient).length ≤ limit ∧ cs.length ≤ limit)) := by
  unfold boundedMoneyText
  by_cases sign : 0 ≤ d.value
  · have accepted : ofHarness (money d "amount") = .ok d := by
      rw [money_ok_iff.2 ⟨rfl, sign⟩]
      rfl
    rw [accepted, ok_bind]
    by_cases zero : d.isZero = true
    · have text : (canonicalText d).chars = ['0'] := by
        rw [canonicalText, if_pos zero]
        rfl
      rw [if_pos zero, pure_ok_iff, text]
      simp [sign, zero]
    · have nonzero : d.coefficient ≠ 0 := by simpa [Decimal.isZero] using zero
      have positive := Nat.pos_of_ne_zero nonzero
      -- only the zero may carry a sign past `money`
      have unsigned : d.negative = false := by
        by_contra negative
        have power : (0 : ℚ) < (10 : ℚ) ^ d.exponent := by positivity
        have coefficient : (0 : ℚ) < d.coefficient := by exact_mod_cast positive
        simp only [Decimal.value, Decimal.signed, Bool.eq_true_of_not_eq_false negative, if_true,
          Int.cast_neg, Int.cast_natCast] at sign
        nlinarith
      rw [if_neg zero, boundedMoneyText_nonzero positive unsigned, canonicalText, if_neg zero]
      simp [sign, zero]
  · have refused : ∃ e, ofHarness (money d "amount") = .error e := by
      cases result : money d "amount" with
      | error e => exact ⟨_, rfl⟩
      | ok r => exact absurd (money_ok_iff.1 result).2 sign
    obtain ⟨e, refused⟩ := refused
    rw [refused, error_bind]
    simp [sign]

end DefiantHarness
