import Prognosis.Adapter
import Prognosis.Text.Printable

/-! Adapters around a function from locators to observations. -/

namespace Prognosis

variable {α : Type}

/-- What a supplied function comes to. -/
inductive Supply (α : Type) where
  | points (points : List (ObservedPoint α))
  /-- The source cannot be reached, or its data cannot be read. -/
  | unusable (reason : String)
  /-- The data lack an entry with this key. -/
  | lacking (key : String)
  /-- The source says itself why it delivers nothing. -/
  | refused (reason : String)
  /-- The function breaks down. -/
  | broken
  /-- The function does not end. -/
  | endless

/-- What an attempt comes to when the function of an adapter does. -/
def Supply.attempt (adapter locator : String) : Supply α → Attempt α
  | points found => .delivered (ObservedPoint.chronological found)
  | unusable reason => .failed (adapter ++ ": fetch of " ++ locator ++ " failed: " ++ reason)
  | lacking key =>
      .failed (adapter ++ ": fetch of " ++ locator ++ " failed: " ++ Text.quoted key)
  | refused reason => .failed (adapter ++ ": " ++ reason)
  | broken => .broken .broken
  | endless => .silent

/-- An adapter around a function of the locator and of the count of earlier calls. -/
def Adapter.supplied (name : String) (handles : String → Bool) (supply : String → Nat → Supply α)
    (retry : RetryPolicy α) : Adapter α :=
  ⟨name, handles,
    fun request earlier => (supply request.locator earlier).attempt name request.locator, retry⟩

end Prognosis
