import DefiantHarness.Foundation.Utf8
import Mathlib.Data.List.DropRight

/-! Text trimming with the whitespace that Unicode-aware stripping removes. -/
namespace Foundation

/-- The code points that count as whitespace. -/
def isSpace (c : Char) : Bool :=
  let n := c.toNat
  (9 ≤ n && n ≤ 13) || (28 ≤ n && n ≤ 32) || n == 0x85 || n == 0xA0 || n == 0x1680 ||
    (0x2000 ≤ n && n ≤ 0x200A) || n == 0x2028 || n == 0x2029 || n == 0x202F || n == 0x205F ||
    n == 0x3000

def stripLeft (cs : List Char) : List Char := cs.dropWhile isSpace

/-- Remove whitespace at both ends. -/
def strip (text : String) : String :=
  String.ofList (stripLeft (stripLeft (charsOf text)).reverse).reverse

theorem stripLeft_eq_nil_iff {cs : List Char} : stripLeft cs = [] ↔ ∀ c ∈ cs, isSpace c = true :=
  List.dropWhile_eq_nil_iff

theorem strip_eq_empty_iff {text : String} :
    strip text = "" ↔ ∀ c ∈ text.toList, isSpace c = true := by
  -- what is left after the front is stripped is blank only if the whole text was
  have rest : (∀ c ∈ stripLeft text.toList, isSpace c = true) ↔
      ∀ c ∈ text.toList, isSpace c = true := by
    rw [← stripLeft_eq_nil_iff, ← stripLeft_eq_nil_iff, stripLeft, stripLeft, List.dropWhile_idempotent]
  rw [strip, String.ofList_eq_empty_iff, List.reverse_eq_nil_iff, stripLeft_eq_nil_iff, charsOf_eq,
    ← rest]
  simp only [List.mem_reverse]

def startsWith (pre text : String) : Bool := (charsOf pre).isPrefixOf (charsOf text)

end Foundation
