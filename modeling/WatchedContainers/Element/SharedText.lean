import WatchedContainers.Identity
import WatchedContainers.Text.Describe

/-!
# Shared texts

Texts of which several may be equal and yet be different objects.  Equality and order see the text
only; the instance tells the objects apart.
-/

namespace WatchedContainers

structure SharedText where
  text : String
  instanceIndex : Nat

namespace SharedText

instance : BEq SharedText := ⟨fun a b => a.text == b.text⟩

instance : Ord SharedText := ⟨fun a b => compare a.text b.text⟩

instance : ObjectIdentity SharedText := ⟨fun a b => a.instanceIndex == b.instanceIndex⟩

instance : Describe SharedText := ⟨fun a => describe a.text⟩

instance : Std.TransOrd SharedText where
  eq_swap {a b} := (Std.OrientedOrd.eq_swap : compare a.text b.text = _)
  isLE_trans {a b _} := (Std.TransOrd.isLE_trans : (compare a.text b.text).isLE → _)

/-- The text with its instance. -/
def label (a : SharedText) : String := a.text ++ "@" ++ toString a.instanceIndex

end SharedText

end WatchedContainers
