import DefiantHarness.Foundation.Refusal

/-! Store operations that may or may not replace the stored value. -/
namespace Foundation

/-- The answer of a store operation, with the new stored value when one was written. -/
structure Update (σ α : Type) where
  written : Option σ
  result : α

namespace Update

variable {σ α : Type}

def unchanged (a : α) : Update σ α := ⟨none, a⟩

def write (s : σ) (a : α) : Update σ α := ⟨some s, a⟩

/-- The stored value after the operation. -/
def state (u : Update σ α) (before : σ) : σ := u.written.getD before

@[simp] theorem state_unchanged (a : α) (before : σ) :
    (unchanged a : Update σ α).state before = before := rfl

@[simp] theorem state_write (s before : σ) (a : α) : (write s a).state before = s := rfl

@[simp] theorem written_unchanged (a : α) : (unchanged a : Update σ α).written = none := rfl

@[simp] theorem written_write (s : σ) (a : α) : (write s a).written = some s := rfl

@[simp] theorem result_unchanged (a : α) : (unchanged a : Update σ α).result = a := rfl

@[simp] theorem result_write (s : σ) (a : α) : (write s a).result = a := rfl

end Update
end Foundation
