import DefiantHarness.PreflightBytes

/-! The one-shot canonical hash and the bounded action hash take the digest of one text, unless an
amount is a negative zero. -/
namespace DefiantHarness

open Foundation

namespace Value

mutual

/-- How many of the amounts in a value are a negative zero. -/
def negativeZeros : Value → Nat
  | .decimal d => if d.negative && d.isZero then 1 else 0
  | .list items => negativeZerosItems items
  | .tuple items => negativeZerosItems items
  | .dict entries => negativeZerosEntries entries
  | .member _ v => negativeZeros v
  | .null => 0
  | .bool _ => 0
  | .int _ => 0
  | .float _ => 0
  | .nonFinite => 0
  | .str _ => 0
  | .foreign => 0

def negativeZerosItems : List Value → Nat
  | [] => 0
  | v :: vs => negativeZeros v + negativeZerosItems vs

def negativeZerosEntries : List Entry → Nat
  | [] => 0
  | (_, v) :: es => negativeZeros v + negativeZerosEntries es

end

theorem negativeZerosItems_eq (items : List Value) :
    negativeZerosItems items = (items.map negativeZeros).sum := by
  induction items with
  | nil => rfl
  | cons v vs ih => rw [negativeZerosItems, ih, List.map_cons, List.sum_cons]

theorem negativeZerosEntries_eq (entries : List Entry) :
    negativeZerosEntries entries = (entries.map fun e => e.2.negativeZeros).sum := by
  induction entries with
  | nil => rfl
  | cons e es ih =>
    obtain ⟨k, v⟩ := e
    rw [negativeZerosEntries, ih, List.map_cons, List.sum_cons]

end Value

private theorem trim_zero (k : Nat) : Decimal.trim 0 k = (0, 0) := by
  induction k with
  | zero => rfl
  | succ k ih => rw [Decimal.trim, if_pos (dvd_zero 10), Nat.zero_div, ih]

/-- A zero amount that is not negative is written `0` either way. -/
private theorem canonicalText_eq_plain {d : Decimal} (ordinary : (d.negative && d.isZero) = false) :
    canonicalText d = d.plain := by
  unfold canonicalText
  split
  next zero =>
    have sign : d.negative = false := by simpa [zero] using ordinary
    have coefficient : d.coefficient = 0 := by simpa [Decimal.isZero] using zero
    have own : d.plain.decimal = ⟨false, 0, 0⟩ := by
      simp [Decimal.plain, coefficient, trim_zero, sign]
    have same : Decimal.zero.plain.decimal = d.plain.decimal := by rw [own]; rfl
    cases left : Decimal.zero.plain
    cases right : d.plain
    rw [left, right] at same
    simpa using same
  next => rfl

private theorem negativeZero_chars {d : Decimal} (zero : (d.negative && d.isZero) = true) :
    d.plain.chars = ['-', '0'] ∧ (canonicalText d).chars = ['0'] := by
  simp only [Bool.and_eq_true] at zero
  have coefficient : d.coefficient = 0 := by simpa [Decimal.isZero] using zero.2
  constructor
  · simp [PlainDecimal.chars, PlainDecimal.fractionDigits, Decimal.plain, coefficient, trim_zero,
      zero.1]
  · rw [canonicalText, if_pos zero.2]
    rfl

private theorem keys_written (money money' : Decimal → PlainDecimal) (entries : List Entry) :
    (Value.writtenEntries money entries).map (·.1) =
      (Value.writtenEntries money' entries).map (·.1) := by
  induction entries with
  | nil => rfl
  | cons e es ih =>
    obtain ⟨k, v⟩ := e
    simp [Value.writtenEntries, ih]

private theorem sequence_written_length {items : List Value}
    (each : ∀ v ∈ items, (v.written Decimal.plain).text.length =
      (v.written canonicalText).text.length + v.negativeZeros) :
    (Data.arr (Value.writtenItems Decimal.plain items)).text.length =
      (Data.arr (Value.writtenItems canonicalText items)).text.length +
        Value.negativeZerosItems items := by
  have total : (items.map fun v => (v.written Decimal.plain).text.length).sum =
      (items.map fun v => (v.written canonicalText).text.length).sum +
        (items.map Value.negativeZeros).sum := by
    rw [List.map_congr_left each]
    exact List.sum_map_add
  rw [sequence_length, sequence_length, total, Value.negativeZerosItems_eq]
  omega

private theorem dict_written_length {entries : List Entry}
    (each : ∀ e ∈ entries, (e.2.written Decimal.plain).text.length =
      (e.2.written canonicalText).text.length + e.2.negativeZeros) :
    ((Value.dict entries).written Decimal.plain).text.length =
      ((Value.dict entries).written canonicalText).text.length +
        Value.negativeZerosEntries entries := by
  have separated : ∀ e ∈ entries, (e.2.written Decimal.plain).text.length + 1 =
      ((e.2.written canonicalText).text.length + 1) + e.2.negativeZeros := by
    intro e member
    rw [each e member]
    omega
  have total : (entries.map fun e => (e.2.written Decimal.plain).text.length + 1).sum =
      (entries.map fun e => (e.2.written canonicalText).text.length + 1).sum +
        (entries.map fun e => e.2.negativeZeros).sum := by
    rw [List.map_congr_left separated]
    exact List.sum_map_add
  rw [dict_length, dict_length, total, Value.negativeZerosEntries_eq,
    keys_written Decimal.plain canonicalText]
  omega

/-- Each negative zero makes the one-shot text one byte longer. -/
theorem written_length (v : Value) :
    (v.written Decimal.plain).text.length =
      (v.written canonicalText).text.length + v.negativeZeros := by
  induction v using Value.induction_on with
  | decimal d =>
    cases zero : d.negative && d.isZero with
    | true =>
      obtain ⟨plain, canonical⟩ := negativeZero_chars zero
      simp only [Value.written, Value.negativeZeros, plain, canonical, zero, if_true]
      decide
    | false =>
      simp [Value.written, Value.negativeZeros, canonicalText_eq_plain zero, zero]
  | list items ih => exact sequence_written_length ih
  | tuple items ih => exact sequence_written_length ih
  | dict entries ih => exact dict_written_length fun e member => (ih e member).2
  | member mixed v ih => exact ih
  | null => rfl
  | bool b => rfl
  | int i => rfl
  | float x => rfl
  | nonFinite => rfl
  | str s => rfl
  | foreign => rfl

private theorem items_agree {items : List Value} (none : Value.negativeZerosItems items = 0)
    (each : ∀ v ∈ items, v.negativeZeros = 0 → v.written Decimal.plain = v.written canonicalText) :
    Value.writtenItems Decimal.plain items = Value.writtenItems canonicalText items := by
  induction items with
  | nil => rfl
  | cons v vs ih =>
    rw [Value.negativeZerosItems, Nat.add_eq_zero_iff] at none
    rw [Value.writtenItems, Value.writtenItems, each v (by simp) none.1,
      ih none.2 fun w member => each w (by simp [member])]

/-- Without a negative zero both ways of writing give one document. -/
theorem written_agree {v : Value} (none : v.negativeZeros = 0) :
    v.written Decimal.plain = v.written canonicalText := by
  induction v using Value.induction_on with
  -- the two spellings differ on a negative zero only
  | decimal d =>
    have ordinary : (d.negative && d.isZero) = false := by
      by_contra zero
      simp [Value.negativeZeros, Bool.eq_true_of_not_eq_false zero] at none
    rw [Value.written, Value.written, canonicalText_eq_plain ordinary]
  | list items ih =>
    rw [Value.written, Value.written, items_agree none ih]
  | tuple items ih =>
    rw [Value.written, Value.written, items_agree none ih]
  | dict entries ih =>
    have each : Value.writtenEntries Decimal.plain entries =
        Value.writtenEntries canonicalText entries := by
      rw [Value.negativeZeros] at none
      induction entries with
      | nil => rfl
      | cons e es step =>
        obtain ⟨k, v⟩ := e
        rw [Value.negativeZerosEntries, Nat.add_eq_zero_iff] at none
        rw [Value.writtenEntries, Value.writtenEntries, (ih (k, v) (by simp)).2 none.1,
          step (fun w member => ih w (by simp [member])) none.2]
    rw [Value.written, Value.written, each]
  | member mixed v ih => exact ih none
  | null => rfl
  | bool b => rfl
  | int i => rfl
  | float x => rfl
  | nonFinite => rfl
  | str s => rfl
  | foreign => rfl

/-! ### What the one-shot encoding writes -/

private theorem dumpsItems_refuse {money : Decimal → PlainDecimal} {items : List Value}
    {xs : List Data} (dumped : Value.dumpsItems .refuse items = .ok xs)
    (each : ∀ v ∈ items, ∀ x, v.dumps .refuse = .ok x → x = v.written money) :
    xs = Value.writtenItems money items := by
  induction items generalizing xs with
  | nil => exact pure_ok_iff.1 dumped
  | cons v vs ih =>
    simp only [Value.dumpsItems, bind_ok_iff, pure_ok_iff] at dumped
    obtain ⟨x, head, ys, tail, rfl⟩ := dumped
    rw [Value.writtenItems, each v (by simp) x head,
      ih tail fun w member => each w (by simp [member])]

private theorem dumpsEntries_refuse {money : Decimal → PlainDecimal} {entries : List Entry}
    {fields : List (Key × Data)} (dumped : Value.dumpsEntries .refuse entries = .ok fields)
    (each : ∀ e ∈ entries, ∀ x, e.2.dumps .refuse = .ok x → x = e.2.written money) :
    fields = Value.writtenEntries money entries := by
  induction entries generalizing fields with
  | nil => exact pure_ok_iff.1 dumped
  | cons e es ih =>
    obtain ⟨k, v⟩ := e
    simp only [Value.dumpsEntries, bind_ok_iff, orRefuse_ok_iff, pure_ok_iff] at dumped
    obtain ⟨key, found, x, head, rest, tail, rfl⟩ := dumped
    rw [Value.writtenEntries, found, each (k, v) (by simp) x head,
      ih tail fun w member => each w (by simp [member])]
    rfl

private theorem dumpsDict {fallback : Fallback} {entries : List Entry} {x : Data}
    (dumped : (Value.dict entries).dumps fallback = .ok x) :
    ∃ fields, Value.dumpsEntries fallback entries = .ok fields ∧
      x = .obj ((fields.insertionSort byKey).map fun (k, x) => (k.name, x)) := by
  simp only [Value.dumps, bind_ok_iff, pure_ok_iff] at dumped
  obtain ⟨fields, inner, _, _, rfl⟩ := dumped
  exact ⟨fields, inner, rfl⟩

/-- An encoder without a fallback never writes an amount. -/
theorem dumps_refuse {money : Decimal → PlainDecimal} {v : Value} {x : Data}
    (dumped : v.dumps .refuse = .ok x) : x = v.written money := by
  induction v using Value.induction_on generalizing x with
  | list items ih =>
    obtain ⟨xs, inner, rfl⟩ := map_ok_iff.1 dumped
    rw [Value.written, dumpsItems_refuse inner fun v member x held => ih v member held]
  | tuple items ih =>
    obtain ⟨xs, inner, rfl⟩ := map_ok_iff.1 dumped
    rw [Value.written, dumpsItems_refuse inner fun v member x held => ih v member held]
  | dict entries ih =>
    obtain ⟨fields, inner, rfl⟩ := dumpsDict dumped
    rw [Value.written, dumpsEntries_refuse inner fun e member x held => (ih e member).2 held]
  | member mixed v ih =>
    cases mixed with
    | true => exact ih dumped
    | false => cases dumped
  | int i =>
    simp only [Value.dumps, refuseIf_bind_ok_iff, pure_ok_iff] at dumped
    exact dumped.2
  -- without a default, a decimal does not serialize
  | decimal d => cases dumped
  | nonFinite => cases dumped
  | foreign => cases dumped
  | null => exact pure_ok_iff.1 dumped
  | bool b => exact pure_ok_iff.1 dumped
  | float x => exact pure_ok_iff.1 dumped
  | str s => exact pure_ok_iff.1 dumped

private theorem enumSafeItems_written {items safe : List Value} {xs : List Data}
    (normalized : Value.enumSafeItems items = .ok safe)
    (dumped : Value.dumpsItems .refuse safe = .ok xs)
    (each : ∀ v ∈ items, ∀ safe x, v.enumSafe = .ok safe → safe.dumps .refuse = .ok x →
      x = v.written Decimal.plain) : xs = Value.writtenItems Decimal.plain items := by
  induction items generalizing safe xs with
  | nil =>
    obtain rfl := pure_ok_iff.1 normalized
    exact pure_ok_iff.1 dumped
  | cons v vs ih =>
    simp only [Value.enumSafeItems, bind_ok_iff, pure_ok_iff] at normalized
    obtain ⟨w, head, ws, tail, rfl⟩ := normalized
    simp only [Value.dumpsItems, bind_ok_iff, pure_ok_iff] at dumped
    obtain ⟨x, first, ys, rest, rfl⟩ := dumped
    rw [Value.writtenItems, each v (by simp) w x head first,
      ih tail rest fun w member => each w (by simp [member])]

private theorem enumSafeEntries_written {entries safe : List Entry} {fields : List (Key × Data)}
    (normalized : Value.enumSafeEntries entries = .ok safe)
    (dumped : Value.dumpsEntries .refuse safe = .ok fields)
    (each : ∀ e ∈ entries, ∀ safe x, e.2.enumSafe = .ok safe → safe.dumps .refuse = .ok x →
      x = e.2.written Decimal.plain) : fields = Value.writtenEntries Decimal.plain entries := by
  induction entries generalizing safe fields with
  | nil =>
    obtain rfl := pure_ok_iff.1 normalized
    exact pure_ok_iff.1 dumped
  | cons e es ih =>
    obtain ⟨k, v⟩ := e
    simp only [Value.enumSafeEntries, bind_ok_iff, pure_ok_iff] at normalized
    obtain ⟨w, head, ws, tail, rfl⟩ := normalized
    simp only [Value.dumpsEntries, bind_ok_iff, orRefuse_ok_iff, pure_ok_iff] at dumped
    obtain ⟨key, found, x, first, rest, more, rfl⟩ := dumped
    rw [Value.writtenEntries, found, each (k, v) (by simp) w x head first,
      ih tail more fun w member => each w (by simp [member])]
    rfl

theorem enumSafe_written {v safe : Value} {x : Data} (normalized : v.enumSafe = .ok safe)
    (dumped : safe.dumps .refuse = .ok x) : x = v.written Decimal.plain := by
  induction v using Value.induction_on generalizing safe x with
  | list items ih =>
    obtain ⟨vs, inner, rfl⟩ := map_ok_iff.1 normalized
    obtain ⟨xs, written, rfl⟩ := map_ok_iff.1 dumped
    rw [Value.written,
      enumSafeItems_written inner written fun v member safe x held held' => ih v member held held']
  | tuple items ih =>
    obtain ⟨vs, inner, rfl⟩ := map_ok_iff.1 normalized
    obtain ⟨xs, written, rfl⟩ := map_ok_iff.1 dumped
    rw [Value.written,
      enumSafeItems_written inner written fun v member safe x held held' => ih v member held held']
  | dict entries ih =>
    obtain ⟨vs, inner, rfl⟩ := map_ok_iff.1 normalized
    obtain ⟨fields, written, rfl⟩ := dumpsDict dumped
    rw [Value.written,
      enumSafeEntries_written inner written fun e member safe x held held' =>
        (ih e member).2 held held']
  -- `_enum_safe` has turned it into its plain text
  | decimal d =>
    obtain ⟨text, money, rfl⟩ := map_ok_iff.1 normalized
    obtain rfl := pure_ok_iff.1 dumped
    have plain : text = d.plain := by
      unfold ofHarness at money
      cases own : moneyText d with
      | error e =>
        rw [own] at money
        cases money
      | ok p =>
        rw [own] at money
        cases money
        simp only [moneyText, bind_ok_iff, money_ok_iff, pure_ok_iff] at own
        obtain ⟨r, ⟨rfl, _⟩, rfl⟩ := own
        rfl
    rw [plain, Value.written]
    simp [ofChars, Points.ofString, PlainDecimal.text]
  | member mixed v ih =>
    obtain rfl := pure_ok_iff.1 normalized
    rw [Value.written]
    exact dumps_refuse dumped
  | int i =>
    obtain rfl := pure_ok_iff.1 normalized
    exact dumps_refuse dumped
  | nonFinite =>
    obtain rfl := pure_ok_iff.1 normalized
    exact dumps_refuse dumped
  | foreign =>
    obtain rfl := pure_ok_iff.1 normalized
    exact dumps_refuse dumped
  | null =>
    obtain rfl := pure_ok_iff.1 normalized
    exact dumps_refuse dumped
  | bool b =>
    obtain rfl := pure_ok_iff.1 normalized
    exact dumps_refuse dumped
  | float x =>
    obtain rfl := pure_ok_iff.1 normalized
    exact dumps_refuse dumped
  | str s =>
    obtain rfl := pure_ok_iff.1 normalized
    exact dumps_refuse dumped

/-- The one-shot text of an accepted value. -/
theorem canonicalJson_text {v : Value} {text : List Char} (accepted : canonicalJson v = .ok text) :
    text = (v.written Decimal.plain).text := by
  simp only [canonicalJson, bind_ok_iff, pure_ok_iff] at accepted
  obtain ⟨safe, normalized, document, dumped, rfl⟩ := accepted
  rw [enumSafe_written normalized dumped]
  rfl

private theorem authority_limits {n : Option Nat} {limits : CanonicalSnapshotLimits}
    (chosen : authoritySnapshotLimits n = .ok limits) :
    ∃ bytes, limits = snapshotLimits (some bytes) := by
  cases n with
  | none => exact ⟨_, (pure_ok_iff.1 chosen)⟩
  | some n =>
    simp only [authoritySnapshotLimits, refuseIf_bind_ok_iff, pure_ok_iff] at chosen
    exact ⟨n, chosen.2⟩

private theorem hashed_written {chunking : Chunking} {v snapshot : Value} {text : List Char}
    {bytes n : Nat} (accepted : validateActionHashStructure (snapshotLimits (some bytes)) v = .ok snapshot)
    (hashed : hashedText chunking snapshot n = .ok text) :
    text = (v.written canonicalText).text := by
  have unlimited := (validated.1 accepted).1
  rw [hashedText, (inside_encoded unlimited).2] at hashed
  have kept : (Except.ok (v.written canonicalText).text : Except HashFault (List Char)).mapError
      encoderFault = .ok (v.written canonicalText).text := rfl
  rw [kept, ok_bind, bind_ok_iff] at hashed
  obtain ⟨_, _, result⟩ := hashed
  exact pure_ok_iff.1 result

/-- The digest that either bounded hash returns. -/
theorem actionSha256Of_digest {sha : TextHash} {chunking : Chunking} {v : Value} {digest : String}
    (accepted : actionSha256Of sha chunking v = .ok digest) :
    digest = "sha256:" ++ sha (v.written canonicalText).text := by
  obtain ⟨⟨snapshot, _⟩, run, rfl⟩ := map_ok_iff.1 accepted
  simp only [actionSnapshotAndSha256Of, bind_ok_iff, pure_ok_iff, Prod.mk.injEq] at run
  obtain ⟨_, validated, text, hashed, _, rfl⟩ := run
  rw [hashed_written validated hashed]

theorem authoritySha256Of_digest {sha : TextHash} {chunking : Chunking} {v snapshot : Value}
    {n : Option Nat} {digest : String}
    (accepted : authoritySnapshotAndSha256Of sha chunking v n = .ok (snapshot, digest)) :
    digest = "sha256:" ++ sha (v.written canonicalText).text := by
  simp only [authoritySnapshotAndSha256Of, bind_ok_iff] at accepted
  obtain ⟨limits, chosen, run⟩ := accepted
  obtain ⟨bytes, rfl⟩ := authority_limits chosen
  cases preflight : validateActionHashStructure (snapshotLimits (some bytes)) v with
  | error e =>
    rw [preflight] at run
    cases run
  | ok copy =>
    rw [preflight, ok_bind] at run
    cases text : hashedText chunking copy
        ((snapshotLimits (some bytes)).canonicalBytes.getD maxActionHashCanonicalBytes) with
    | error e =>
      rw [text] at run
      cases run
    | ok text' =>
      rw [text] at run
      cases run
      rw [hashed_written preflight text]

theorem sha256Of_digest {sha : TextHash} {v : Value} {digest : String}
    (accepted : sha256Of sha v = .ok digest) :
    digest = "sha256:" ++ sha (v.written Decimal.plain).text := by
  simp only [sha256Of, bind_ok_iff, pure_ok_iff] at accepted
  obtain ⟨text, written, rfl⟩ := accepted
  rw [canonicalJson_text written]

/-- For a value that both hashes accept, the digests agree for every hash of texts exactly when no
amount in it is a negative zero. -/
theorem hashes_agree_iff (chunking : Chunking) (v : Value)
    (plain : ∃ text, canonicalJson v = .ok text)
    (bounded : ∃ snapshot, validateActionHashStructure
      (snapshotLimits (some maxActionHashCanonicalBytes)) v = .ok snapshot) :
    (∀ sha a b, sha256Of sha v = .ok a →
      (actionSha256Of sha chunking v = .ok b ∨
        ∃ n snapshot, authoritySnapshotAndSha256Of sha chunking v n = .ok (snapshot, b)) → a = b) ↔
      v.negativeZeros = 0 := by
  constructor
  · intro agree
    obtain ⟨text, plain⟩ := plain
    obtain ⟨snapshot, accepted⟩ := bounded
    obtain ⟨written, hashed⟩ := @hashed_of_accepted chunking _ _ _ accepted
    have own : sha256Of String.ofList v = .ok ("sha256:" ++ String.ofList text) := by
      rw [sha256Of, plain]
      rfl
    have other : actionSha256Of String.ofList chunking v =
        .ok ("sha256:" ++ String.ofList written) := by
      rw [actionSha256Of, actionSnapshotAndSha256Of, accepted, ok_bind, hashed.2]
      rfl
    have same := agree String.ofList _ _ own (.inl other)
    rw [sha256Of_digest own, actionSha256Of_digest other] at same
    have texts : (v.written Decimal.plain).text = (v.written canonicalText).text := by
      have read := congrArg String.toList same
      simpa using read
    -- every negative zero makes one of the texts a character longer
    have length := written_length v
    rw [texts] at length
    omega
  · intro none sha a b own other
    rw [sha256Of_digest own, written_agree none]
    rcases other with action | ⟨n, snapshot, authority⟩
    · rw [actionSha256Of_digest action]
    · rw [authoritySha256Of_digest authority]

/-- The price list `{"fee": Decimal("0.50")}`. -/
private def priceList : Value :=
  .dict [(.str (Points.ofString "fee"), .decimal ⟨false, 50, -2⟩)]

theorem hashes_agree_price :
    (∀ sha a b, sha256Of sha priceList = .ok a →
      (actionSha256Of sha Chunking.single priceList = .ok b ∨
        ∃ n snapshot, authoritySnapshotAndSha256Of sha Chunking.single priceList n = .ok (snapshot, b)) →
          a = b) ↔ priceList.negativeZeros = 0 :=
  hashes_agree_iff Chunking.single priceList ⟨_, rfl⟩ ⟨_, rfl⟩

/-- `Decimal("-0")` is hashed as `"-0"` by one and as `"0"` by the other. -/
theorem negative_zero_disagrees :
    ¬ ∀ (sha : TextHash) (chunking : Chunking) (v : Value) (a b : String),
      sha256Of sha v = .ok a → actionSha256Of sha chunking v = .ok b → a = b := by
  intro agree
  have same := agree String.ofList Chunking.single (.decimal ⟨true, 0, 0⟩) _ _ rfl rfl
  exact absurd same (by decide)

end DefiantHarness
